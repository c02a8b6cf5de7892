import Concordance.Engine
import Concordance.Proofs.Evaluation
import Concordance.Proofs.Except
import Concordance.Proofs.Ranking

/-!
# Searches over related postings

A search takes the same steps whatever the postings are. Where the counts of an index
fit together, its ranking returns, so a search fails only by nesting and lists each
match once.
-/
namespace Concordance

namespace DocSet

theorem isEmpty_iff {s : DocSet} : s.isEmpty ↔ s = .empty := by
  constructor
  · intro h
    refine ext fun d => ?_
    rw [mem_iff, List.isEmpty_iff.mp h]
    rfl
  · rintro rfl
    rfl

theorem foldl_inter_empty (l : List DocSet) : l.foldl inter .empty = .empty := by
  induction l with
  | nil => rfl
  | cons t rest ih => exact ih

/-- To stop at the empty set changes nothing. -/
theorem interAll_eq_foldl (s : DocSet) (l : List DocSet) : (s.interAll l).1 = l.foldl inter s := by
  induction l generalizing s with
  | nil => rfl
  | cons t rest ih =>
    unfold interAll
    split
    · next hempty =>
      rw [isEmpty_iff.mp hempty]
      exact (foldl_inter_empty rest).symm
    · exact ih (s.inter t)

theorem mem_foldl_inter {l : List DocSet} {s : DocSet} {d : Int} :
    d ∈ l.foldl inter s ↔ d ∈ s ∧ ∀ t ∈ l, d ∈ t := by
  induction l generalizing s with
  | nil => simp
  | cons t rest ih => rw [List.foldl_cons, ih, mem_inter, List.forall_mem_cons, and_assoc]

theorem mem_interMany {l : List DocSet} (hl : l ≠ []) {d : Int} :
    d ∈ (interMany l).1 ↔ ∀ s ∈ l, d ∈ s := by
  cases l with
  | nil => exact absurd rfl hl
  | cons s rest =>
    rw [interMany, interAll_eq_foldl, mem_foldl_inter, List.forall_mem_cons]

/-- Common elements of related lists of sets are related. -/
theorem interMany_related {R : DocSet → DocSet → Prop} (hR : Compatible R) {l m : List DocSet}
    (h : List.Forall₂ R l m) : R (interMany l).1 (interMany m).1 := by
  cases h with
  | nil => exact hR.empty
  | @cons s t l m hst hrest =>
    simp only [interMany, interAll_eq_foldl]
    induction hrest generalizing s t with
    | nil => exact hst
    | cons hst' _ ih => exact ih (hR.apply .and hst hst')

end DocSet

namespace Engine

variable {R : DocSet → DocSet → Prop} {v u : IndexView}

/-- The failure of a query whose parentheses nest too deeply. -/
def nestingFailure (depth : Int) : Failure := .tooDeep (decimal depth)

theorem mapM_alike (e : Engine)
    (h : ∀ t, ∃ s s', v.postings t = .ok s ∧ u.postings t = .ok s' ∧ R s s') (words : List Text) :
    ∃ l m, words.mapM (fun w => v.postings (e.stemmer.stem w)) = .ok l ∧
      words.mapM (fun w => u.postings (e.stemmer.stem w)) = .ok m ∧ List.Forall₂ R l m := by
  induction words with
  | nil => exact ⟨[], [], rfl, rfl, .nil⟩
  | cons w rest ih =>
    obtain ⟨s, t, hs, ht, hst⟩ := h (e.stemmer.stem w)
    obtain ⟨l, m, hl, hm, hlm⟩ := ih
    refine ⟨s :: l, t :: m, ?_, ?_, .cons hst hlm⟩
    · rw [List.mapM_cons, hs, ok_bind, hl]
      rfl
    · rw [List.mapM_cons, ht, ok_bind, hm]
      rfl

theorem conjunction_alike (hR : Compatible R)
    (h : ∀ t, ∃ s s', v.postings t = .ok s ∧ u.postings t = .ok s' ∧ R s s') (e : Engine)
    (failure : Failure) (tokens : List Text) :
    Alike R failure (e.conjunction v tokens) (e.conjunction u tokens) := by
  obtain ⟨l, m, hl, hm, hlm⟩ := e.mapM_alike h (conjunctionWords tokens)
  rw [conjunction, conjunction, hl, hm]
  exact .ok (DocSet.interMany_related hR hlm)

theorem boolean_alike (hR : Compatible R)
    (h : ∀ t, ∃ s s', v.postings t = .ok s ∧ u.postings t = .ok s' ∧ R s s') {e : Engine}
    {tokens : List Text} {limit : DepthLimit} (hlimit : e.depthLimit tokens.length = .ok limit) :
    Alike R (.tooDeep limit.shown) (e.boolean v tokens) (e.boolean u tokens) := by
  rw [boolean, boolean, hlimit, ok_bind, ok_bind]
  exact evaluate_alike hR (fun w => h (e.stemmer.stem w)) limit tokens

/-- Queries match related sets of documents where postings are related. They fail alike, and only by
parentheses that nest too deeply. -/
theorem matching_alike (hR : Compatible R) {e : Engine} {depth : Int}
    (hdepth : e.maxDepth = .int depth)
    (h : ∀ t, ∃ s s', v.postings t = .ok s ∧ u.postings t = .ok s' ∧ R s s') (query : Text) :
    Alike R (nestingFailure depth) (e.matching v query) (e.matching u query) := by
  rw [matching, matching]
  split
  · exact conjunction_alike hR h e _ _
  · have hlimit : e.depthLimit (e.tokens query).length = .ok (.whole depth) := by
      rw [depthLimit, hdepth]
      rfl
    exact boolean_alike hR h hlimit

/-- Whatever is given as the greatest depth, queries fail alike or match related sets. -/
theorem exists_matching_alike (hR : Compatible R)
    (h : ∀ t, ∃ s s', v.postings t = .ok s ∧ u.postings t = .ok s' ∧ R s s') (e : Engine)
    (query : Text) :
    ∃ failure, Alike R failure (e.matching v query) (e.matching u query) := by
  rw [matching, matching]
  split
  · exact ⟨nestingFailure 0, conjunction_alike hR h e _ _⟩
  · cases hlimit : e.depthLimit (e.tokens query).length with
    | error failure =>
      rw [boolean, boolean, hlimit]
      exact ⟨failure, .error⟩
    | ok limit => exact ⟨_, boolean_alike hR h hlimit⟩

/-- A document that is in no postings is no match. -/
theorem not_mem_matching {d : Int} (h : ∀ t, ∃ s, v.postings t = .ok s ∧ d ∉ s) {e : Engine}
    {query : Text} {docs : DocSet} (hdocs : e.matching v query = .ok docs) : d ∉ docs := by
  have hself : ∀ t, ∃ s s', v.postings t = .ok s ∧ v.postings t = .ok s' ∧ d ∉ s := by
    intro t
    obtain ⟨s, hs, hd⟩ := h t
    exact ⟨s, s, hs, hs, hd⟩
  obtain ⟨failure, halike⟩ := exists_matching_alike (compatible_not_mem d) hself e query
  rw [hdocs] at halike
  cases halike with
  | ok hd => exact hd

/-- Where all postings can be read, a query that does not nest too deeply is matched. -/
theorem exists_matching {e : Engine} {depth : Int} (hdepth : e.maxDepth = .int depth)
    (h : ∀ t, ∃ s, v.postings t = .ok s) {query : Text}
    (hnesting : e.matching v query ≠ .error (nestingFailure depth)) :
    ∃ docs, e.matching v query = .ok docs := by
  have halike := matching_alike (v := v) (u := v) compatible_true hdepth
    (fun t => (h t).elim fun s hs => ⟨s, s, hs, hs, trivial⟩) query
  cases hmatching : e.matching v query with
  | ok docs => exact ⟨docs, rfl⟩
  | error failure =>
    rw [hmatching] at halike
    cases halike
    exact absurd hmatching hnesting

/-- The ids of the matches of a query, the best match first. -/
def found (e : Engine) (v : IndexView) (query : Text) : Except Failure (List Int) :=
  (e.search v query).map fun hits => hits.map Hit.doc

/-- What a search finds are its matches, each of them once. -/
theorem matching_of_found {e : Engine} {query : Text} {ids : List Int}
    (h : e.found v query = .ok ids) :
    ∃ docs, e.matching v query = .ok docs ∧ ids.Nodup ∧ ∀ d, d ∈ ids ↔ d ∈ docs := by
  obtain ⟨hits, hhits, rfl⟩ := map_eq_ok_iff.mp h
  rw [search, bind_eq_ok_iff] at hhits
  obtain ⟨docs, hdocs, hhits⟩ := hhits
  have hperm := Counts.perm_of_score hhits
  have hnodup : docs.ids.Nodup := docs.increasing.imp fun hlt => Int.ne_of_lt hlt
  exact ⟨docs, hdocs, hperm.nodup_iff.mpr hnodup, fun d => hperm.mem_iff⟩

theorem found_eq_ok (hv : v.toCounts.Sound) {e : Engine} {query : Text} {docs : DocSet}
    (h : e.matching v query = .ok docs) :
    ∃ ids, e.found v query = .ok ids ∧ ids.Nodup ∧ ∀ d, d ∈ ids ↔ d ∈ docs := by
  obtain ⟨hits, hhits⟩ :=
    hv.score docs.ids ((rankingWords (e.tokens query)).map e.stemmer.stem)
  have hfound : e.found v query = .ok (hits.map Hit.doc) := by
    rw [found, search, h, ok_bind, hhits]
    rfl
  obtain ⟨docs', hdocs', hids⟩ := matching_of_found hfound
  rw [h] at hdocs'
  cases hdocs'
  exact ⟨_, hfound, hids⟩

/-- Where counts fit together, a search fails as its matching does. -/
theorem found_eq_error_iff (hv : v.toCounts.Sound) {e : Engine} {query : Text} {failure : Failure} :
    e.found v query = .error failure ↔ e.matching v query = .error failure := by
  cases h : e.matching v query with
  | error failure' =>
    rw [found, search, h, error_bind, Except.map, Except.error.injEq, Except.error.injEq]
  | ok docs =>
    obtain ⟨ids, hids, -⟩ := found_eq_ok hv h
    rw [hids]
    exact iff_of_false nofun nofun

section Answers

variable {e : Engine} {query : Text} {hits : List Hit} {text : Int → Option Text} {limit : Json}

/-- The results for hits, with the contents that are told by `text`. -/
def resultsOf (text : Int → Option Text) (hits : List Hit) : List Result :=
  hits.mapIdx fun i hit => ⟨i + 1, hit.doc, hit.score, text hit.doc⟩

/-- The limit that counts, that of the query or else that of the engine, is the number `k`. -/
def LimitedTo (e : Engine) (limit : Json) (k : Nat) : Prop :=
  1 ≤ k ∧ (limit = .int k ∨ limit.isEmpty = true ∧ e.maxResults = .int k)

/-- Neither the query nor the engine has a limit. -/
def Unlimited (e : Engine) (limit : Json) : Prop :=
  limit.isEmpty = true ∧ e.maxResults.isEmpty = true

theorem resultsFrom_eq (hv : ∀ d, v.content d = .ok (text d)) (rank : Nat) (hits : List Hit) :
    resultsFrom v rank hits =
      .ok (hits.mapIdx fun i hit => ⟨i + rank, hit.doc, hit.score, text hit.doc⟩) := by
  induction hits generalizing rank with
  | nil => rfl
  | cons hit rest ih =>
    have hnext (i : Nat) : i + 1 + rank = i + (rank + 1) := by omega
    simp only [resultsFrom, hv, ok_bind, ih, pure_eq_ok, List.mapIdx_cons, Nat.zero_add, hnext]

theorem take_resultsOf (text : Int → Option Text) (k : Nat) (hits : List Hit) :
    resultsOf text (hits.take k) = (resultsOf text hits).take k := by
  refine List.ext_getElem? fun i => ?_
  simp only [resultsOf, List.getElem?_mapIdx, List.getElem?_take]
  split <;> rfl

theorem docs_resultsOf (text : Int → Option Text) (hits : List Hit) :
    (resultsOf text hits).map Result.doc = hits.map Hit.doc := by
  refine List.ext_getElem? fun i => ?_
  rw [resultsOf, List.getElem?_map, List.getElem?_mapIdx, Option.map_map, List.getElem?_map]
  rfl

/-- What is shown are the results for the hits that the limit lets pass. -/
theorem answer_of_shown (hv : ∀ d, v.content d = .ok (text d)) (h : e.search v query = .ok hits)
    {passed : List Hit}
    (hpassed : shown (if limit.isEmpty then e.maxResults else limit) hits = .ok passed) :
    e.answer v query limit = .ok ⟨query, resultsOf text passed, hits.length⟩ := by
  rw [answer, h, ok_bind, hpassed, ok_bind, resultsFrom_eq hv]
  rfl

theorem answer_of_limitedTo (hv : ∀ d, v.content d = .ok (text d))
    (h : e.search v query = .ok hits) {k : Nat} (hlimit : e.LimitedTo limit k) :
    e.answer v query limit = .ok ⟨query, (resultsOf text hits).take k, hits.length⟩ := by
  obtain ⟨hk, hlimit⟩ := hlimit
  have hfull : (Json.int k).isEmpty = false := by
    rw [Json.isEmpty, beq_eq_false_iff_ne]
    omega
  have hcounts : (if limit.isEmpty then e.maxResults else limit) = .int k := by
    obtain rfl | ⟨hempty, hengine⟩ := hlimit
    · rw [hfull, if_neg Bool.false_ne_true]
    · rw [hempty, if_pos rfl, hengine]
  have hpassed : shown (.int k) hits = .ok (hits.take k) := by
    rw [shown, hfull, if_neg Bool.false_ne_true]
    simp only [Json.wholeNumber, upTo]
    rw [if_neg (by omega), Int.toNat_natCast]
  rw [← take_resultsOf]
  exact answer_of_shown hv h (hcounts ▸ hpassed)

theorem answer_of_unlimited (hv : ∀ d, v.content d = .ok (text d))
    (h : e.search v query = .ok hits) (hlimit : e.Unlimited limit) :
    e.answer v query limit = .ok ⟨query, resultsOf text hits, hits.length⟩ := by
  refine answer_of_shown hv h ?_
  rw [hlimit.1, if_pos rfl, shown, if_pos hlimit.2]

/-- A limit shows the first of the ids that are found. -/
theorem docs_answer (hv : ∀ d, v.content d = .ok (text d)) {ids : List Int} {k : Int} (hk : 1 ≤ k)
    (h : e.found v query = .ok ids) :
    ∃ answer, e.answer v query (.int k) = .ok answer ∧
      answer.results.map Result.doc = ids.take k.toNat := by
  obtain ⟨hits, hhits, rfl⟩ := map_eq_ok_iff.mp h
  obtain ⟨n, rfl⟩ := Int.eq_ofNat_of_zero_le (by omega : 0 ≤ k)
  refine ⟨_, answer_of_limitedTo hv hhits ⟨by omega, .inl rfl⟩, ?_⟩
  rw [← take_resultsOf, docs_resultsOf, List.map_take, Int.toNat_natCast]

end Answers

end Engine

end Concordance
