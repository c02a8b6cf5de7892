import Concordance.Proofs.Doubles
import Concordance.Proofs.FreshWeights
import Concordance.Proofs.Ranking
import Concordance.Stemmer

/-!
# The one order of hits

Hits whose scores are numbers are ranked by their positions in a linear order, and only
hits of one document with one score have the same position. The score of a document does
not depend on the documents that are scored with it, so it does not matter in which order
documents are listed to be ranked.
-/
namespace Concordance

namespace Hit

/-- The position of a hit: that of its score, counted downwards, and then its id. -/
def position (hit : Hit) : (Int ×ₗ Int ×ₗ Int)ᵒᵈ ×ₗ Int :=
  toLex (OrderDual.toDual (place hit.score), hit.doc)

/-- The score of a hit is a number. -/
def HasNumber (hit : Hit) : Prop := hit.score.isNaN = false

variable {a b : Hit} {hits hits' : List Hit}

theorem position_lt_iff (ha : a.HasNumber) (hb : b.HasNumber) :
    a.position < b.position ↔
      b.score < a.score ∨ (a.score == b.score) = true ∧ a.doc < b.doc := by
  rw [position, position, Prod.Lex.toLex_lt_toLex, OrderDual.toDual_lt_toDual,
    OrderDual.toDual_inj, lt_iff_place hb ha, beq_iff_place ha hb]

theorem position_le_iff (ha : a.HasNumber) (hb : b.HasNumber) :
    a.position ≤ b.position ↔
      b.score < a.score ∨ (a.score == b.score) = true ∧ a.doc ≤ b.doc := by
  rw [position, position, Prod.Lex.toLex_le_toLex, OrderDual.toDual_lt_toDual,
    OrderDual.toDual_inj, lt_iff_place hb ha, beq_iff_place ha hb]

theorem doc_eq_of_position_eq (h : a.position = b.position) : a.doc = b.doc :=
  congrArg (fun p => (ofLex p).2) h

theorem not_before_eq (ha : a.HasNumber) (hb : b.HasNumber) :
    (!b.before a) = decide (a.position ≤ b.position) := by
  have hbefore : b.before a = decide (b.position < a.position) := by
    rw [Bool.eq_iff_iff, before, Bool.or_eq_true, Bool.and_eq_true, decide_eq_true_iff,
      decide_eq_true_iff, decide_eq_true_iff, position_lt_iff hb ha]
  rw [hbefore, ← decide_not, decide_eq_decide, not_lt]

theorem ranked_eq_sortBy (h : ∀ hit ∈ hits, hit.HasNumber) :
    ranked hits = sortBy (fun a b => a.position ≤ b.position) hits :=
  sortBy_congr fun _ ha _ hb => not_before_eq (h _ ha) (h _ hb)

theorem position_trans (a b c : Hit) (hab : decide (a.position ≤ b.position) = true)
    (hbc : decide (b.position ≤ c.position) = true) : decide (a.position ≤ c.position) = true :=
  decide_eq_true ((of_decide_eq_true hab).trans (of_decide_eq_true hbc))

theorem position_total (a b : Hit) :
    decide (a.position ≤ b.position) = true ∨ decide (b.position ≤ a.position) = true :=
  (le_total a.position b.position).imp decide_eq_true decide_eq_true

/-- A ranked hit has a higher score than every later one, or the same score and no greater id. -/
theorem pairwise_ranked (h : ∀ hit ∈ hits, hit.HasNumber) :
    (ranked hits).Pairwise fun a b =>
      b.score < a.score ∨ (a.score == b.score) = true ∧ a.doc ≤ b.doc := by
  rw [ranked_eq_sortBy h]
  refine (pairwise_sortBy position_trans position_total hits).imp_of_mem fun ha hb hab => ?_
  have hmem {hit : Hit} (hhit : hit ∈ sortBy (fun a b => a.position ≤ b.position) hits) :
      hit.HasNumber := h hit ((perm_sortBy hits).mem_iff.mp hhit)
  exact (position_le_iff (hmem ha) (hmem hb)).mp (of_decide_eq_true hab)

/-- Where the hits of one document are the same, the order of hits does not matter to their
ranking. -/
theorem ranked_eq_of_perm (h : ∀ hit ∈ hits, hit.HasNumber)
    (hsame : ∀ a ∈ hits, ∀ b ∈ hits, a.doc = b.doc → a = b) (hperm : hits.Perm hits') :
    ranked hits = ranked hits' := by
  rw [ranked_eq_sortBy h, ranked_eq_sortBy fun hit hhit => h hit (hperm.mem_iff.mpr hhit)]
  refine sortBy_eq_of_perm position_trans position_total (fun a ha b hb hab hba => ?_) hperm
  have hposition := le_antisymm (of_decide_eq_true hab) (of_decide_eq_true hba)
  exact hsame a ha b hb (doc_eq_of_position_eq hposition)

end Hit

namespace Counts

variable {c : Counts} {stem : Text → Text} {docs : List Int} {words : List Text} {hits : List Hit}

theorem doc_of_hitAfresh {doc : Int} {hit : Hit} (h : c.hitAfresh stem words doc = .ok hit) :
    hit.doc = doc := by
  rw [hitAfresh, bind_eq_ok_iff] at h
  obtain ⟨n, -, h⟩ := h
  rw [bind_eq_ok_iff] at h
  obtain ⟨score, -, h⟩ := h
  cases h
  rfl

/-- A scored hit is what comes of its document alone. -/
theorem hitAfresh_of_mem (h : docs.mapM (c.hitAfresh stem words) = .ok hits) :
    ∀ hit ∈ hits, c.hitAfresh stem words hit.doc = .ok hit := by
  have hpairs := mapM_eq_ok_iff.mp h
  clear h
  induction hpairs with
  | nil => exact List.forall_mem_nil _
  | cons hhit _ ih =>
    refine List.forall_mem_cons.mpr ⟨?_, ih⟩
    rwa [doc_of_hitAfresh hhit]

theorem scoreAfresh_eq_ok_iff :
    c.scoreAfresh stem docs words = .ok hits ↔
      ∃ scored, docs.mapM (c.hitAfresh stem words) = .ok scored ∧ Hit.ranked scored = hits := by
  rw [scoreAfresh, bind_eq_ok_iff]
  simp only [pure_eq_ok, Except.ok.injEq]

/-- Where all scores are numbers, the hits of a list of documents are these documents, each as often
as it was listed, and a document has one score. They are in the order of their scores, the highest
first, and of their ids where scores are equal, and they are the same hits in whatever order the
documents are listed. -/
theorem canonical_of_score (h : c.score docs (words.map stem) = .ok hits)
    (hnumber : ∀ hit ∈ hits, hit.score.isNaN = false) :
    (hits.map Hit.doc).Perm docs ∧
      (∀ a ∈ hits, ∀ b ∈ hits, a.doc = b.doc → a.score = b.score) ∧
      (hits.Pairwise fun a b =>
        b.score < a.score ∨ (a.score == b.score) = true ∧ a.doc ≤ b.doc) ∧
      ∀ docs' : List Int, docs'.Perm docs → c.score docs' (words.map stem) = .ok hits := by
  have hdocs := perm_of_score h
  rw [score_eq_afresh, scoreAfresh_eq_ok_iff] at h
  obtain ⟨scored, hscored, rfl⟩ := h
  have hmem (hit : Hit) : hit ∈ Hit.ranked scored ↔ hit ∈ scored := (perm_sortBy scored).mem_iff
  have hnumbers : ∀ hit ∈ scored, hit.HasNumber := fun hit hhit =>
    hnumber hit ((hmem hit).mpr hhit)
  have hsame : ∀ a ∈ scored, ∀ b ∈ scored, a.doc = b.doc → a = b := by
    intro a ha b hb hdoc
    have hscore := hitAfresh_of_mem hscored a ha
    rw [hdoc, hitAfresh_of_mem hscored b hb] at hscore
    exact (Except.ok.inj hscore).symm
  refine ⟨hdocs, fun a ha b hb hdoc => ?_, Hit.pairwise_ranked hnumbers, fun docs' hperm => ?_⟩
  · rw [hsame a ((hmem a).mp ha) b ((hmem b).mp hb) hdoc]
  · obtain ⟨scored', hscored', hperm'⟩ := mapM_ok_of_perm hperm hscored
    rw [score_eq_afresh, scoreAfresh_eq_ok_iff]
    exact ⟨scored', hscored', (Hit.ranked_eq_of_perm hnumbers hsame hperm'.symm).symm⟩

/-- The theorem at two words with one term that is said to be in no document, so that all scores are
zero, and a document that is listed twice. -/
theorem canonical_of_score_equal_scores :
    let c : Counts :=
      { frequency := fun term doc => .ok (if term = "cat".toText then doc else 0)
        length := fun _ => .ok 4
        documentFrequency := fun _ => .ok 0
        documentCount := .ok 3 }
    let terms : List Text := List.map Stemmer.suffix.stem [['c', 'a', 't', 's'], ['c', 'a', 't']]
    let hits : List Hit := [⟨1, 0.0⟩, ⟨3, 0.0⟩, ⟨3, 0.0⟩]
    c.score [3, 1, 3] terms = .ok hits ∧ (hits.map Hit.doc).Perm [3, 1, 3] ∧
      (hits.Pairwise fun a b =>
        b.score < a.score ∨ (a.score == b.score) = true ∧ a.doc ≤ b.doc) ∧
      c.score [1, 3, 3] terms = .ok hits := by
  intro c terms hits
  have hscore : c.score [3, 1, 3] terms = .ok hits := by rfl
  have hnumber : ∀ hit ∈ hits, hit.score.isNaN = false := by decide
  obtain ⟨hdocs, -, hordered, hperm⟩ := canonical_of_score hscore hnumber
  exact ⟨hscore, hdocs, hordered, hperm [1, 3, 3] (by decide)⟩

end Counts

end Concordance
