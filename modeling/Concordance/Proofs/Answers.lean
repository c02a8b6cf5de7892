import Concordance.Proofs.MergedTerms
import Concordance.Proofs.Scan

/-!
# What is shown of the matches

An answer shows the first of the matches of a query, numbered from one, each with the
text that was taken in for its id. A match is a stored document, so a text is never
missing. The limit decides how many matches are shown, and nothing else.
-/
namespace Concordance

open Ingestion (firstText)

namespace Engine

/-- What is answered to a query with the given hits, where the documents have the texts that are
told by `text`. -/
structure Shows (e : Engine) (v : IndexView) (text : Int → Option Text) (query : Text)
    (hits : List Hit) : Prop where
  /-- No document is shown twice. -/
  distinct : (hits.map Hit.doc).Nodup
  present : ∀ hit ∈ hits, ∃ t, text hit.doc = some t
  limited : ∀ limit k, e.LimitedTo limit k →
    e.answer v query limit = .ok ⟨query, (resultsOf text hits).take k, hits.length⟩
  unlimited : ∀ limit, e.Unlimited limit →
    e.answer v query limit = .ok ⟨query, resultsOf text hits, hits.length⟩
  /-- A greater limit adds results behind those of a smaller one. -/
  grows : ∀ limit limit' k k', e.LimitedTo limit k → e.LimitedTo limit' k' → k ≤ k' →
    ∃ fewer more, e.answer v query limit = .ok fewer ∧ e.answer v query limit' = .ok more ∧
      fewer.results <+: more.results

end Engine

namespace IndexView

/-- Every query that does not fail shows its hits, with the texts that are told by `text`. -/
def ShowsTexts (v : IndexView) (text : Int → Option Text) : Prop :=
  ∀ (e : Engine) (query : Text) (hits : List Hit), e.search v query = .ok hits →
    e.Shows v text query hits

end IndexView

namespace IndexView

variable {v : IndexView} {text : Int → Option Text}

/-- Where every document that postings list has a text, the texts that are shown are those. -/
theorem ShowsTexts.of_postings (hcontent : ∀ d, v.content d = .ok (text d))
    (hpostings : ∀ t, ∃ s, v.postings t = .ok s ∧ ∀ d ∈ s, text d ≠ none) : v.ShowsTexts text := by
  intro e query hits h
  have hfound : e.found v query = .ok (hits.map Hit.doc) := by
    rw [Engine.found, h]
    rfl
  obtain ⟨matched, hmatched, hdistinct, hmem⟩ := Engine.matching_of_found hfound
  refine ⟨hdistinct, fun hit hhit => ?_, fun limit k hlimit => ?_, fun limit hlimit => ?_,
    fun limit limit' k k' hlimit hlimit' hle => ?_⟩
  · have hin : hit.doc ∈ matched := (hmem hit.doc).mp (List.mem_map_of_mem hhit)
    refine Option.ne_none_iff_exists'.mp fun hnone => ?_
    refine Engine.not_mem_matching (fun t => ?_) hmatched hin
    obtain ⟨s, hs, hall⟩ := hpostings t
    exact ⟨s, hs, fun hmem => hall _ hmem hnone⟩
  · exact Engine.answer_of_limitedTo hcontent h hlimit
  · exact Engine.answer_of_unlimited hcontent h hlimit
  · exact ⟨_, _, Engine.answer_of_limitedTo hcontent h hlimit,
      Engine.answer_of_limitedTo hcontent h hlimit', List.take_prefix_take_left hle⟩

end IndexView

namespace Collection

variable {a : Analyzer} {docs : Collection}

theorem ne_none_of_postings (a : Analyzer) (docs : Collection) (t : Text) :
    ∃ s, (view a docs).postings t = .ok s ∧ ∀ d ∈ s, docs.get? d ≠ none := by
  refine ⟨_, postings_view t, fun d hd => ?_⟩
  rw [DocSet.mem_ofList, mem_having] at hd
  obtain ⟨text, htext, -⟩ := hd
  rw [htext]
  exact Option.some_ne_none text

/-- Each hit is a stored document, so the texts that are shown are those of the documents, also
where terms are read as one. -/
theorem showsTexts_of_drawsOn {v : IndexView} (h : v.DrawsOn (view a docs)) :
    v.ShowsTexts docs.get? := by
  refine .of_postings (fun d => ?_) (h.forall_postings (ne_none_of_postings a docs) fun d hd => ?_)
  · rw [h.content]
    rfl
  · cases hd

end Collection

namespace Index

end Index

end Concordance
