import Concordance.Proofs.MergedTerms
import Concordance.Proofs.Scan

/-!
# A search fails only by nesting

The ranking divides by the lengths of documents and takes the logarithms of quotients of
counts. A search of a created index never divides by less than one, and never asks for
the weight of a term that is in none of the documents or in more than there are. This is
said without a look into the ranking: counts that refuse such numbers are ranked alike.
-/
namespace Concordance

namespace Counts

/-- No length is below one, and a term that occurs in a document is in at least one and at most all
of the documents. -/
structure Bounded (c : Counts) : Prop where
  length : ∀ doc, ∃ n, c.length doc = .ok n ∧ 1 ≤ n
  spread : ∀ term doc f, c.frequency term doc = .ok f → 0 < f → ∃ n total,
    c.documentFrequency term = .ok n ∧ c.documentCount = .ok total ∧ 1 ≤ n ∧ n ≤ total

/-- Counts that refuse to tell a length below one, and in how many documents a term is where that is
none of them or more than there are. -/
def guarded (c : Counts) (refusal : Failure) : Counts where
  frequency := c.frequency
  length doc := do
    let n ← c.length doc
    if 1 ≤ n then return n else throw refusal
  documentFrequency term := do
    let n ← c.documentFrequency term
    let total ← c.documentCount
    if 1 ≤ n ∧ n ≤ total then return n else throw refusal
  documentCount := c.documentCount

variable {c : Counts} {term : Text} {doc f : Int} (refusal : Failure)

theorem Bounded.length_guarded (h : c.Bounded) (doc : Int) :
    (c.guarded refusal).length doc = c.length doc := by
  obtain ⟨n, hn, hone⟩ := h.length doc
  simp only [guarded, hn, ok_bind, if_pos hone, pure_eq_ok]

/-- The weight of a term is the same with the refusals as soon as the term occurs anywhere. -/
theorem Bounded.weight_guarded (h : c.Bounded) (hf : c.frequency term doc = .ok f) (hpos : 0 < f) :
    (c.guarded refusal).weight term = c.weight term := by
  obtain ⟨n, total, hn, htotal, hbounds⟩ := h.spread term doc f hf hpos
  have hhaving : (c.guarded refusal).documentFrequency term = .ok n := by
    simp only [guarded, hn, htotal, ok_bind, if_pos hbounds, pure_eq_ok]
  rw [weight, weight, hhaving, hn]
  rfl

theorem Bounded.weightOnce_guarded (h : c.Bounded) (hf : c.frequency term doc = .ok f)
    (hpos : 0 < f) (known : Weights) :
    (c.guarded refusal).weightOnce known term = c.weightOnce known term := by
  rw [weightOnce, weightOnce, h.weight_guarded refusal hf hpos]

theorem Bounded.addTerms_guarded (h : c.Bounded) (doc length : Int) (known : Weights)
    (score : Float) (terms : List Text) :
    (c.guarded refusal).addTerms doc length known score terms =
      c.addTerms doc length known score terms := by
  induction terms generalizing known score with
  | nil => rfl
  | cons term rest ih =>
    rw [addTerms, addTerms]
    have hfrequency : (c.guarded refusal).frequency term doc = c.frequency term doc := rfl
    rw [hfrequency]
    cases hf : c.frequency term doc with
    | error e => rfl
    | ok f =>
      simp only [ok_bind, ih]
      by_cases hnone : f ≤ 0
      · rw [if_pos hnone, if_pos hnone]
      · -- Only here a weight is asked for, of a term that occurs in the document.
        rw [if_neg hnone, if_neg hnone, h.weightOnce_guarded refusal hf (by omega)]

theorem Bounded.scoreEach_guarded (h : c.Bounded) (terms : List Text) (known : Weights)
    (docs : List Int) :
    (c.guarded refusal).scoreEach terms known docs = c.scoreEach terms known docs := by
  induction docs generalizing known with
  | nil => rfl
  | cons doc rest ih =>
    simp only [scoreEach, h.length_guarded, h.addTerms_guarded, ih]

theorem Bounded.score_guarded (h : c.Bounded) (docs : List Int) (terms : List Text) :
    (c.guarded refusal).score docs terms = c.score docs terms := by
  rw [score, score, h.scoreEach_guarded]

end Counts

namespace IndexView

def guarded (v : IndexView) (refusal : Failure) : IndexView :=
  { v with toCounts := v.toCounts.guarded refusal }

/-- Every query is answered unless its parentheses nest too deeply, and no answer rests on a length
below one or on the weight of a term that is in none of the documents or in more than there are. -/
structure Searchable (v : IndexView) : Prop where
  search : ∀ (e : Engine) (depth : Int), e.maxDepth = .int depth → ∀ query,
    (∃ hits, e.search v query = .ok hits) ∨
      e.search v query = .error (Engine.nestingFailure depth)
  bounded : v.toCounts.Bounded
  guarded : ∀ (e : Engine) (query : Text) (refusal : Failure),
    e.search (v.guarded refusal) query = e.search v query

end IndexView

namespace Engine

variable {v : IndexView}

/-- Where counts fit together, a search fails only by parentheses that nest too deeply. -/
theorem search_cases (hv : v.toCounts.Sound) (hpostings : ∀ t, ∃ s, v.postings t = .ok s)
    {e : Engine} {depth : Int} (hdepth : e.maxDepth = .int depth) (query : Text) :
    (∃ hits, e.search v query = .ok hits) ∨
      e.search v query = .error (nestingFailure depth) := by
  by_cases hnesting : e.matching v query = .error (nestingFailure depth)
  · exact .inr (by rw [search, hnesting, error_bind])
  · obtain ⟨docs, hdocs⟩ := exists_matching hdepth hpostings hnesting
    obtain ⟨hits, hhits⟩ :=
      hv.score docs.ids ((rankingWords (e.tokens query)).map e.stemmer.stem)
    exact .inl ⟨hits, by rw [search, hdocs, ok_bind, hhits]⟩

theorem search_guarded (hv : v.toCounts.Bounded) (e : Engine) (query : Text) (refusal : Failure) :
    e.search (v.guarded refusal) query = e.search v query := by
  have hmatching : e.matching (v.guarded refusal) query = e.matching v query := rfl
  rw [search, search, hmatching]
  cases e.matching v query with
  | error failure => rfl
  | ok docs => exact hv.score_guarded refusal docs.ids _

end Engine

/-- Where counts fit together and all postings can be read, every query is answered safely. -/
theorem IndexView.Searchable.of_sound {v : IndexView} (hsound : v.toCounts.Sound)
    (hbounded : v.toCounts.Bounded) (hpostings : ∀ t, ∃ s, v.postings t = .ok s) :
    v.Searchable where
  search _ _ hdepth := Engine.search_cases hsound hpostings hdepth
  bounded := hbounded
  guarded := Engine.search_guarded hbounded

/-- Counts stay bounded where terms are read as one. -/
theorem IndexView.DrawsOn.bounded {v u : IndexView} (h : v.DrawsOn u) (hu : u.toCounts.Bounded) :
    v.toCounts.Bounded where
  length doc := by
    rw [h.length]
    exact hu.length doc
  spread term doc f hf hpos := by
    obtain ⟨hfrequency, -⟩ | ⟨source, hfrequency, hhaving, -⟩ := h.terms term
    · rw [hfrequency] at hf
      cases hf
      omega
    · rw [hfrequency] at hf
      rw [hhaving, h.documentCount]
      exact hu.spread source doc f hf hpos

namespace Collection

variable {a : Analyzer} {docs : Collection}

theorem counts_bounded (a : Analyzer) (docs : Collection) : (view a docs).toCounts.Bounded where
  length doc := ⟨_, rfl, by omega⟩
  spread term doc f hf hpos := by
    have hfrequency : (frequency a docs term doc : Int) = f := Except.ok.inj hf
    have hmem : doc ∈ having a docs term := frequency_pos.mp (by omega)
    have hone := List.length_pos_of_mem hmem
    have hall := length_having_le a docs term
    exact ⟨_, _, rfl, rfl, by omega, by omega⟩

theorem searchable (h : docs.size < Nat.pow 2 1023) : (view a docs).Searchable :=
  .of_sound (counts_sound h) (counts_bounded a docs) fun t => ⟨_, postings_view t⟩

/-- What draws on a collection can be searched as the collection can. -/
theorem searchable_of_drawsOn (h : docs.size < Nat.pow 2 1023) {v : IndexView}
    (hv : v.DrawsOn (view a docs)) : v.Searchable := by
  refine .of_sound (hv.sound (counts_sound h)) (hv.bounded (counts_bounded a docs)) fun t => ?_
  obtain ⟨s, hs, -⟩ := hv.forall_postings (P := fun _ => True)
    (fun t => ⟨_, postings_view t, trivial⟩) trivial t
  exact ⟨s, hs⟩

end Collection

namespace Index

end Index

end Concordance
