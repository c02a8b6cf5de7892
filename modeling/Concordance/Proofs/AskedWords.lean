import Concordance.Proofs.OwnText

/-!
# A query without connectives asks for all of its words

Which documents such a query finds is told by their texts: those that have the term of
every word of the query. Parentheses, the order of the words and how often one of them is
written make no difference, and neither does how the index came about. A connective that
is not in capitals is a word.
-/
namespace Concordance

namespace Engine

/-- The words of a query that asks for all of them: its tokens other than parentheses. -/
def askedWords (e : Engine) (query : Text) : List Text :=
  (e.tokens query).filter fun token => token ≠ [.char '('] ∧ token ≠ [.char ')']

theorem conjunctionWords_tokens (e : Engine) (query : Text) :
    conjunctionWords (e.tokens query) = e.askedWords query := by
  refine List.filter_congr fun token htoken => ?_
  rw [e.not_isKeyword_of_mem_tokens htoken, Bool.eq_iff_iff]
  simp

theorem isConjunction_iff (e : Engine) (query : Text) :
    e.isConjunction query = true ↔ (e.tokens query).length ≤ 1 ∨
      ∀ token ∈ queryTokens e.punctuation false query, isKeyword token = false := by
  rw [isConjunction, Bool.or_eq_true, decide_eq_true_eq, Bool.not_eq_true', List.any_eq_false]
  simp only [Bool.not_eq_true]

end Engine

namespace Collection

variable {a : Analyzer} {docs : Collection}

/-- Of some words a document has all, at least one of them, if its text has the terms of all. -/
theorem forall_mem_having {words : List Text} (hne : words ≠ []) {d : Int} :
    (∀ word ∈ words, d ∈ having a docs (a.stem word)) ↔
      ∃ text, docs.get? d = some text ∧ ∀ word ∈ words, a.stem word ∈ a.terms text := by
  constructor
  · intro h
    obtain ⟨word, hword⟩ := List.exists_mem_of_ne_nil words hne
    obtain ⟨text, htext, -⟩ := mem_having.mp (h word hword)
    refine ⟨text, htext, fun word hword => ?_⟩
    obtain ⟨text', htext', hterm⟩ := mem_having.mp (h word hword)
    rw [htext] at htext'
    cases htext'
    exact hterm
  · rintro ⟨text, htext, h⟩ word hword
    exact mem_having.mpr ⟨text, htext, h word hword⟩

end Collection

namespace Index

variable {x : Index} {storage : IndexStorage} {now : Text} {name : Json} {entries : List Json}

/-- What a query that asks for all of its words finds in a created index. -/
theorem found_conjunction (h : (x.create storage now name entries).failure = none)
    (hbound : entries.length < Nat.pow 2 1023) (s : Settings) {query : Text}
    (hquery : (s.engine x.analyzer).isConjunction query = true) :
    ∃ ids, (s.engine x.analyzer).found (x.create storage now name entries).index.view query =
        .ok ids ∧ ids.Nodup ∧
      ∀ d, d ∈ ids ↔ (s.engine x.analyzer).askedWords query ≠ [] ∧ ∃ text,
        (x.create storage now name entries).index.view.content d = .ok (some text) ∧
          ∀ word ∈ (s.engine x.analyzer).askedWords query,
            x.analyzer.stem word ∈ x.analyzer.terms text := by
  have hsound := sound_create h hbound
  rw [view_create h] at hsound ⊢
  generalize Ingestion.accepted .empty entries = docs at hsound ⊢
  obtain ⟨s', hs', hmem⟩ := (s.engine x.analyzer).conjunction_view x.analyzer docs
    ((s.engine x.analyzer).tokens query)
  rw [Engine.conjunctionWords_tokens] at hmem
  have hmatching : (s.engine x.analyzer).matching (Collection.view x.analyzer docs) query =
      .ok s' := by
    rw [Engine.matching, if_pos hquery, hs']
  obtain ⟨ids, hids, hnodup, hfound⟩ := Engine.found_eq_ok hsound hmatching
  refine ⟨ids, hids, hnodup, fun d => ?_⟩
  rw [hfound, hmem]
  refine and_congr_right fun hne => (Collection.forall_mem_having hne).trans ?_
  have hcontent (text : Text) : docs.get? d = some text ↔
      (Collection.view x.analyzer docs).content d = .ok (some text) :=
    ⟨congrArg Except.ok, Except.ok.inj⟩
  simp only [hcontent]

/-- A query of at most one token, or without a connective in capitals, finds nothing if it has no
words. Else it finds the documents whose texts have the terms of all of its words, each of them
once. The bound on the entries, from which on a quotient of counts may be no double, is far beyond
the length of any list that a machine holds. -/
theorem found_asked_words (h : (x.create storage now name entries).failure = none)
    (hbound : entries.length < Nat.pow 2 1023) (s : Settings) {query : Text}
    (hquery : ((s.engine x.analyzer).tokens query).length ≤ 1 ∨
      ∀ token ∈ queryTokens x.analyzer.punctuation false query, isKeyword token = false) :
    ∃ ids, (s.engine x.analyzer).found (x.create storage now name entries).index.view query =
        .ok ids ∧ ids.Nodup ∧
      ((s.engine x.analyzer).askedWords query = [] → ids = []) ∧
      ((s.engine x.analyzer).askedWords query ≠ [] → ∀ d, d ∈ ids ↔ ∃ text,
        (x.create storage now name entries).index.view.content d = .ok (some text) ∧
          ∀ word ∈ (s.engine x.analyzer).askedWords query,
            x.analyzer.stem word ∈ x.analyzer.terms text) := by
  obtain ⟨ids, hids, hnodup, hmem⟩ :=
    found_conjunction h hbound s (((s.engine x.analyzer).isConjunction_iff query).mpr hquery)
  refine ⟨ids, hids, hnodup, fun hnone => ?_, fun hsome d => ?_⟩
  · exact List.eq_nil_iff_forall_not_mem.mpr fun d hd => ((hmem d).mp hd).1 hnone
  · rw [hmem, and_iff_right hsome]

/-- The theorem at a query with a word in two forms, small connectives, and parentheses that do not
match, where stopwords are removed from the documents. -/
theorem found_asked_words_in_open_groups :
    let s : Settings :=
      ⟨⟨⟨lower, []⟩, true, .str defaultPunctuation, .str "suffix".toText, true, true,
        .null⟩, .null, .null, .int 0, .null, ⟨false, []⟩⟩
    let a : Analyzer := ⟨true, defaultPunctuation, .suffix, [['t', 'h', 'e']]⟩
    let x : Index := .database (.new a ⟨false, [['d']]⟩)
    let entries := [Ingestion.pair 2 "Dogs or a cat".toText, Ingestion.pair 1 "cats".toText,
      Ingestion.pair 3 "The cat Or: or the dog".toText]
    let query : Text := "(dog, (Cats) or dogs".toText
    let created := x.create .empty [] (.str ['i']) entries
    (s.engine a).askedWords query = ["dog".toText, "cats".toText, "or".toText, "dogs".toText] ∧
      ∃ ids, (s.engine a).found created.index.view query = .ok ids ∧ ids.Nodup ∧
        ∀ d, d ∈ ids ↔ ∃ text, created.index.view.content d = .ok (some text) ∧
          ∀ word ∈ (s.engine a).askedWords query, a.stem word ∈ a.terms text := by
  intro s a x entries query created
  have h : created.failure = none := by decide +kernel
  have hbound : entries.length < Nat.pow 2 1023 := by decide +kernel
  have hquery : ∀ token ∈ queryTokens a.punctuation false query, isKeyword token = false := by
    decide +kernel
  have hwords : (s.engine a).askedWords query =
      ["dog".toText, "cats".toText, "or".toText, "dogs".toText] := by decide +kernel
  obtain ⟨ids, hids, hnodup, -, hfound⟩ := found_asked_words (x := x) h hbound s (.inr hquery)
  exact ⟨hwords, ids, hids, hnodup, hfound (by rw [show x.analyzer = a from rfl, hwords]; simp)⟩

end Index

end Concordance
