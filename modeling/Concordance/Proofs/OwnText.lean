import Concordance.Proofs.Conjunction
import Concordance.Settings

/-!
# A document is found by its own text

Documents and queries are cut into words in two ways: a document loses its punctuation
and is split at blanks, a query is read character by character. On a text without
parentheses both give the same words. A query without connectives asks for all of its
words, and a document has all words of its own text.
-/
namespace Concordance

section Words

variable {punctuation : Text}

theorem forall_of_any_eq_false {p : CodePoint → Bool} {t : Text} (h : t.any p = false) :
    ∀ c ∈ t, p c = false :=
  fun c hc => Bool.eq_false_iff.mpr (List.any_eq_false.mp h c hc)

/-- To leave out punctuation first, or while words are collected, comes to the same. -/
theorem wordsFrom_filter (hmarks : ∀ c ∈ punctuation, isBlank c = false) {t : Text}
    (ht : ∀ c ∈ t, isParenthesis c = false) (current : Text) :
    wordsFrom current (t.filter (· ∉ punctuation)) = tokensFrom punctuation current t := by
  induction t generalizing current with
  | nil => rfl
  | cons c rest ih =>
    obtain ⟨hc, hrest⟩ := List.forall_mem_cons.mp ht
    rw [tokensFrom, hc, if_neg Bool.false_ne_true]
    by_cases hmark : c ∈ punctuation
    · rw [List.filter_cons_of_neg (by simpa using hmark), hmarks c hmark,
        if_neg Bool.false_ne_true, if_pos hmark]
      exact ih hrest current
    · rw [List.filter_cons_of_pos (by simpa using hmark), wordsFrom, if_neg hmark, ih hrest,
        ih hrest]

/-- The characters of tokens are those of the text. -/
theorem mem_of_mem_tokensFrom {current t token : Text} {c : CodePoint}
    (h : token ∈ tokensFrom punctuation current t) (hc : c ∈ token) : c ∈ current ∨ c ∈ t := by
  have hfinished {current : Text} (h : token ∈ finished current) : c ∈ current := by
    unfold finished at h
    split at h
    · exact absurd h List.not_mem_nil
    · rwa [← List.mem_singleton.mp h]
  induction t generalizing current with
  | nil => exact .inl (hfinished h)
  | cons d rest ih =>
    rw [tokensFrom] at h
    split at h
    · obtain h | h := List.mem_append.mp h
      · exact .inl (hfinished h)
      · obtain rfl | h := List.mem_cons.mp h
        · exact .inr (List.mem_cons.mpr (.inl (List.mem_singleton.mp hc)))
        · exact .inr (List.mem_cons_of_mem d ((ih h).resolve_left List.not_mem_nil))
    · split at h
      · obtain h | h := List.mem_append.mp h
        · exact .inl (hfinished h)
        · exact .inr (List.mem_cons_of_mem d ((ih h).resolve_left List.not_mem_nil))
      · split at h
        · exact (ih h).imp_right (List.mem_cons_of_mem d)
        · obtain h | h := ih h
          · rw [List.mem_append, List.mem_singleton] at h
            exact h.imp_right fun hcd => List.mem_cons.mpr (.inl hcd)
          · exact .inr (List.mem_cons_of_mem d h)

/-- A token in lower case is no keyword in capitals. -/
theorem not_isKeyword_of_not_capital {token : Text}
    (h : ∀ c ∈ token, inRanges capitalRanges c = false) : isKeyword token = false := by
  rw [isKeyword, List.any_eq_false]
  intro op _ hop
  rw [← of_decide_eq_true hop] at h
  cases op <;> exact absurd (h _ List.mem_cons_self) (by decide)

end Words

namespace Analyzer

variable {a : Analyzer}

/-- A text without parentheses has the same words as a document and as a query. -/
theorem tokens_eq_queryTokens (hstop : a.stopwords = [])
    (hmarks : ∀ c ∈ a.punctuation, isBlank c = false) {text : Text}
    (htext : ∀ c ∈ text, isParenthesis c = false) :
    a.tokens text = queryTokens a.punctuation a.lowercase text := by
  rw [queryTokens_eq, tokens, hstop, words]
  have hall : ∀ l : List Text, l.filter (· ∉ []) = l := fun l => by simp
  rw [hall]
  refine wordsFrom_filter hmarks ?_ []
  split
  · exact not_isParenthesis_lower htext
  · exact htext

/-- What the options of an analyzer say of punctuation, of lower case and of stopwords. -/
theorem ofOptions_eq_ok {o : AnalyzerOptions} (h : ofOptions o = .ok a) :
    o.punctuation = .str a.punctuation ∧ a.lowercase = o.lowercase ∧
      (o.removeStopwords = false → a.stopwords = []) := by
  rw [ofOptions, bind_eq_ok_iff] at h
  obtain ⟨punctuation, hpunctuation, h⟩ := h
  rw [Json.text_eq_ok_iff] at hpunctuation
  dsimp only at h
  -- The two choices: of a stemmer, and whether stopwords are removed.
  split at h
  all_goals
    split at h
    · next hremove =>
      obtain ⟨stemmer, -, h⟩ := bind_eq_ok_iff.mp h
      obtain ⟨stopwords, -, h⟩ := bind_eq_ok_iff.mp h
      cases h
      exact ⟨hpunctuation, rfl, fun ho => absurd hremove (by rw [ho]; decide)⟩
    · obtain ⟨stemmer, -, h⟩ := bind_eq_ok_iff.mp h
      cases h
      exact ⟨hpunctuation, rfl, fun _ => rfl⟩

theorem of_ofOptions {o : AnalyzerOptions} (h : ofOptions o = .ok a) :
    a.lowercase = o.lowercase ∧ (o.removeStopwords = false → a.stopwords = []) :=
  (ofOptions_eq_ok h).2

/-- A text without parentheses is cut into the same words as a query and as a document, if
punctuation is the same for both and is not blank, documents are put in lower case, and no
stopwords are removed from them. -/
theorem queryTokens_eq_documentTokens {o : AnalyzerOptions} (h : ofOptions o = .ok a)
    {punctuation : Text} (hpunctuation : o.punctuation = .str punctuation)
    (hlower : o.lowercase = true) (hstop : o.removeStopwords = false)
    (hmarks : ∀ c ∈ punctuation, isBlank c = false) {text : Text}
    (htext : ∀ c ∈ text, isParenthesis c = false) :
    queryTokens punctuation true text = a.tokens text := by
  obtain ⟨hsame, hlowercase, hstopwords⟩ := ofOptions_eq_ok h
  obtain rfl : a.punctuation = punctuation := Json.str.inj (hsame.symm.trans hpunctuation)
  rw [tokens_eq_queryTokens (hstopwords hstop) hmarks htext, hlowercase, hlower]

/-- The theorem at marks inside of words, beside blanks, alone and at both ends, where a sigma is
the last letter of a word and another one is not. -/
theorem queryTokens_eq_documentTokens_with_marks :
    let punctuation : Text := "-.'".toText
    let o : AnalyzerOptions :=
      ⟨⟨lower, []⟩, true, .str punctuation, .str "suffix".toText, true, false, .null⟩
    let text : Text := "-Do.g's -\u0391\u03A3' .\u2003\u0391\u03A3.\u0392 \u0130!-".toText
    ofOptions o = .ok ⟨true, punctuation, .suffix, []⟩ ∧
      queryTokens punctuation true text = tokens ⟨true, punctuation, .suffix, []⟩ text := by
  intro punctuation o text
  have h : ofOptions o = .ok ⟨true, punctuation, .suffix, []⟩ := rfl
  have hmarks : ∀ c ∈ punctuation, isBlank c = false := forall_of_any_eq_false (by decide)
  have htext : ∀ c ∈ text, isParenthesis c = false := forall_of_any_eq_false (by decide +kernel)
  exact ⟨h, queryTokens_eq_documentTokens h rfl rfl rfl hmarks htext⟩

/-- The analyzer that leaves the case of letters as it is. -/
def keepingCase (a : Analyzer) : Analyzer := { a with lowercase := false }

end Analyzer

namespace Engine

/-- A query is searched in lower case, so no token of it is a keyword in capitals. -/
theorem not_isKeyword_of_mem_tokens (e : Engine) {query token : Text} (h : token ∈ e.tokens query) :
    isKeyword token = false := by
  rw [tokens, queryTokens_eq, if_pos rfl] at h
  refine not_isKeyword_of_not_capital fun c hc => not_capital_lower query c ?_
  exact (mem_of_mem_tokensFrom h hc).resolve_left List.not_mem_nil

/-- All words of a text without parentheses are asked for. -/
theorem conjunctionWords_eq_self (e : Engine) {text : Text}
    (htext : ∀ c ∈ text, isParenthesis c = false) :
    conjunctionWords (e.tokens text) = e.tokens text := by
  rw [conjunctionWords, List.filter_eq_self]
  intro token htoken
  have hkeyword := e.not_isKeyword_of_mem_tokens htoken
  rw [tokens, queryTokens_eq, if_pos rfl] at htoken
  have hword : ∀ c ∈ token, isParenthesis c = false := fun c hc =>
    not_isParenthesis_lower htext c
      ((mem_of_mem_tokensFrom htoken hc).resolve_left List.not_mem_nil)
  have hopening : token ≠ [.char '('] := ne_singleton_of_isParenthesis hword rfl
  have hclosing : token ≠ [.char ')'] := ne_singleton_of_isParenthesis hword rfl
  simp [hopening, hclosing, hkeyword]

/-- The documents that are asked for by some words are those that have all of them, none where
there are no words. -/
theorem conjunction_view (e : Engine) (a : Analyzer) (docs : Collection) (tokens : List Text) :
    ∃ s, e.conjunction (Collection.view a docs) tokens = .ok s ∧ ∀ d, d ∈ s ↔
      conjunctionWords tokens ≠ [] ∧
        ∀ word ∈ conjunctionWords tokens, d ∈ Collection.having a docs (e.stemmer.stem word) := by
  have hsets : (conjunctionWords tokens).mapM
        (fun word => (Collection.view a docs).postings (e.stemmer.stem word)) =
      .ok ((conjunctionWords tokens).map fun word =>
        .ofList (Collection.having a docs (e.stemmer.stem word))) := by
    have hmap := mapM_map_ok (f := fun word =>
        (Collection.view a docs).postings (e.stemmer.stem word)) (g := id)
      (l := conjunctionWords tokens) fun _ _ => Collection.postings_view _
    rwa [List.map_id] at hmap
  refine ⟨_, by rw [conjunction, hsets, ok_bind, pure_eq_ok], fun d => ?_⟩
  by_cases hne : conjunctionWords tokens = []
  · rw [hne]
    exact iff_of_false (DocSet.not_mem_empty d) fun h => h.1 rfl
  · rw [DocSet.mem_interMany (by simpa using hne), List.forall_mem_map]
    simp only [DocSet.mem_ofList, ne_eq, hne, not_false_eq_true, true_and]

end Engine

namespace Settings

variable {s : Settings} {a : Analyzer} (hlower : a.lowercase = true) (hstop : a.stopwords = [])
  (hmarks : ∀ c ∈ a.punctuation, isBlank c = false) {text : Text}
  (htext : ∀ c ∈ text, isParenthesis c = false)

include hstop hmarks htext

/-- A text is asked for by all of its words, unless one of them is a connective in capitals. -/
theorem isConjunction_engine
    (hwords : ∀ token ∈ a.keepingCase.tokens text, isKeyword token = false) :
    (s.engine a).isConjunction text = true := by
  have hraw : a.keepingCase.tokens text = queryTokens a.punctuation false text :=
    Analyzer.tokens_eq_queryTokens (a := a.keepingCase) hstop hmarks htext
  rw [hraw] at hwords
  rw [Engine.isConjunction, Bool.or_eq_true]
  refine .inr ?_
  rw [Bool.not_eq_true', List.any_eq_false]
  exact fun token htoken => Bool.eq_false_iff.mp (hwords token htoken)

include hlower

theorem tokens_engine : (s.engine a).tokens text = a.tokens text := by
  rw [Analyzer.tokens_eq_queryTokens hstop hmarks htext, hlower]
  rfl

theorem matching_engine {docs : Collection} {d : Int} (hd : docs.get? d = some text)
    (hne : a.tokens text ≠ [])
    (hwords : ∀ token ∈ a.keepingCase.tokens text, isKeyword token = false) :
    ∃ docs', (s.engine a).matching (Collection.view a docs) text = .ok docs' ∧
      d ∈ docs' := by
  have hasked : Engine.conjunctionWords ((s.engine a).tokens text) = a.tokens text := by
    rw [(s.engine a).conjunctionWords_eq_self htext, tokens_engine hlower hstop hmarks htext]
  obtain ⟨docs', hdocs', hmem⟩ :=
    (s.engine a).conjunction_view a docs ((s.engine a).tokens text)
  rw [hasked] at hmem
  refine ⟨docs', ?_, (hmem d).mpr ⟨hne, fun word hword => ?_⟩⟩
  · rw [Engine.matching, if_pos (isConjunction_engine hstop hmarks htext hwords), hdocs']
  · exact Collection.mem_having.mpr ⟨text, hd, List.mem_map_of_mem hword⟩

end Settings

namespace Index

/-- Every document of a created index is found by its text, if that has words, none of them a
connective in capitals, and no parentheses. -/
theorem found_own_text {x : Index} {storage : IndexStorage} {now : Text} {name : Json}
    {entries : List Json} {s : Settings} (hx : Analyzer.ofOptions s.analysis = .ok x.analyzer)
    (hlower : s.analysis.lowercase = true) (hstop : s.analysis.removeStopwords = false)
    (hmarks : ∀ c ∈ x.analyzer.punctuation, isBlank c = false)
    (h : (x.create storage now name entries).failure = none)
    (hbound : entries.length < Nat.pow 2 1023) {d : Int} {text : Text}
    (hd : (x.create storage now name entries).index.view.content d = .ok (some text))
    (htext : ∀ c ∈ text, isParenthesis c = false) (hne : x.analyzer.tokens text ≠ [])
    (hwords : ∀ token ∈ x.analyzer.keepingCase.tokens text, isKeyword token = false) :
    ∃ ids, (s.engine x.analyzer).found (x.create storage now name entries).index.view text =
      .ok ids ∧ d ∈ ids := by
  obtain ⟨hlowercase, hstopwords⟩ := Analyzer.of_ofOptions hx
  have hsound := sound_create h hbound
  rw [view_create h] at hd hsound ⊢
  have hdoc : (Ingestion.accepted .empty entries).get? d = some text := Except.ok.inj hd
  obtain ⟨docs, hdocs, hmem⟩ := Settings.matching_engine (hlowercase.trans hlower)
    (hstopwords hstop) hmarks htext hdoc hne hwords
  obtain ⟨ids, hids, -, hfound⟩ := Engine.found_eq_ok hsound hdocs
  exact ⟨ids, hids, (hfound d).mpr hmem⟩

/-- The theorem at a text with marks inside words, a small connective, a capital I with dot and a
sigma at the end of a word. -/
theorem found_own_text_with_marks :
    let s : Settings :=
      ⟨⟨⟨lower, []⟩, true, .str defaultPunctuation, .str "suffix".toText, true, false,
        .null⟩, .null, .null, .int 0, .null, ⟨false, []⟩⟩
    let a : Analyzer := ⟨true, defaultPunctuation, .suffix, []⟩
    let x : Index := .database (.new a ⟨false, [['d']]⟩)
    let text := " Do.gs and\tcats,\u2003\u0130\u03A3!".toText
    let entries := [Ingestion.pair 1 "a cow".toText, Ingestion.pair 2 text]
    ∃ ids, (s.engine a).found (x.create .empty [] (.str ['i']) entries).index.view text = .ok ids ∧
      2 ∈ ids := by
  intro s a x text entries
  have h : (x.create .empty [] (.str ['i']) entries).failure = none := by decide +kernel
  have hstored : (Ingestion.accepted .empty entries).get? 2 = some text := by decide +kernel
  have hd : (x.create .empty [] (.str ['i']) entries).index.view.content 2 = .ok (some text) := by
    rw [view_create h]
    exact congrArg Except.ok hstored
  have hnone {p : CodePoint → Bool} {t : Text} (ht : t.any p = false) : ∀ c ∈ t, p c = false :=
    fun c hc => Bool.eq_false_iff.mpr (List.any_eq_false.mp ht c hc)
  have hmarks : ∀ c ∈ a.punctuation, isBlank c = false := hnone (by decide)
  have htext : ∀ c ∈ text, isParenthesis c = false := hnone (by decide +kernel)
  have hne : a.tokens text ≠ [] := by decide +kernel
  have hwords : ∀ token ∈ a.keepingCase.tokens text, isKeyword token = false := by
    decide +kernel
  have hbound : entries.length < Nat.pow 2 1023 := by decide +kernel
  exact found_own_text (s := s) (x := x) rfl rfl rfl hmarks h hbound hd htext hne hwords

end Index

end Concordance
