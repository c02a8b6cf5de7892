import Concordance.Proofs.AskedWords
import Concordance.Proofs.LoweredText
import Concordance.Proofs.QueryCut

/-!
# Looking up the words of documents

A word of a document is in lower case already, and has no blanks and no punctuation left. As
a query it is read as it stands, unless there are parentheses in it: documents keep these
inside of words, and queries are cut at them.
-/
namespace Concordance

/-- A word of a text is not empty, and it has characters of the text that are not blank. -/
theorem of_mem_wordsFrom {current t word : Text} (hcurrent : ∀ c ∈ current, isBlank c = false)
    (h : word ∈ wordsFrom current t) :
    word ≠ [] ∧ ∀ c ∈ word, isBlank c = false ∧ (c ∈ current ∨ c ∈ t) := by
  have hfinished {current t : Text} (hcurrent : ∀ c ∈ current, isBlank c = false)
      (h : word ∈ finished current) :
      word ≠ [] ∧ ∀ c ∈ word, isBlank c = false ∧ (c ∈ current ∨ c ∈ t) := by
    unfold finished at h
    split at h
    · exact absurd h List.not_mem_nil
    · next hne =>
      obtain rfl := List.mem_singleton.mp h
      exact ⟨hne, fun c hc => ⟨hcurrent c hc, .inl hc⟩⟩
  induction t generalizing current with
  | nil => exact hfinished hcurrent h
  | cons c rest ih =>
    rw [wordsFrom] at h
    split at h
    · obtain h | h := List.mem_append.mp h
      · exact hfinished hcurrent h
      · obtain ⟨hne, hword⟩ := ih (List.forall_mem_nil _) h
        refine ⟨hne, fun d hd => ⟨(hword d hd).1, .inr ?_⟩⟩
        exact List.mem_cons_of_mem c ((hword d hd).2.resolve_left List.not_mem_nil)
    · next hblank =>
      have hcurrent' : ∀ d ∈ current ++ [c], isBlank d = false := by
        intro d hd
        obtain hd | hd := List.mem_append.mp hd
        · exact hcurrent d hd
        · rw [List.mem_singleton.mp hd]
          exact Bool.eq_false_iff.mpr hblank
      obtain ⟨hne, hword⟩ := ih hcurrent' h
      refine ⟨hne, fun d hd => ⟨(hword d hd).1, ?_⟩⟩
      obtain hd | hd := (hword d hd).2
      · rw [List.mem_append, List.mem_singleton] at hd
        exact hd.imp_right fun hcd => List.mem_cons.mpr (.inl hcd)
      · exact .inr (List.mem_cons_of_mem c hd)

namespace Analyzer

variable {a : Analyzer} {text word : Text}

theorem of_mem_tokens (hlower : a.lowercase = true) (h : word ∈ a.tokens text) :
    word ≠ [] ∧ ∀ c ∈ word, c ∈ lower text ∧ isBlank c = false ∧ c ∉ a.punctuation := by
  rw [tokens, hlower, if_pos rfl] at h
  obtain ⟨hne, hword⟩ := of_mem_wordsFrom (List.forall_mem_nil _) (List.mem_filter.mp h).1
  refine ⟨hne, fun c hc => ?_⟩
  obtain ⟨hblank, hmem⟩ := hword c hc
  obtain ⟨htext, hmark⟩ := List.mem_filter.mp (hmem.resolve_left List.not_mem_nil)
  exact ⟨htext, hblank, of_decide_eq_true hmark⟩

/-- A word of a document is in lower case. -/
theorem lower_of_mem_tokens (hlower : a.lowercase = true) (h : word ∈ a.tokens text) :
    lower word = word :=
  lower_eq_self fun c hc => ((of_mem_tokens hlower h).2 c hc).1

/-- A word of a document can be a token of a query if there are no parentheses in it. -/
theorem isToken_of_mem_tokens (hlower : a.lowercase = true) (h : word ∈ a.tokens text)
    (hword : ∀ c ∈ word, isParenthesis c = false) : IsToken a.punctuation word := by
  obtain ⟨hne, hchars⟩ := of_mem_tokens hlower h
  refine .inr (.inr ⟨hne, fun c hc => ?_⟩)
  obtain ⟨-, hblank, hmark⟩ := hchars c hc
  simp [isInWord, hword c hc, hblank, hmark]

end Analyzer

namespace Settings

variable {s : Settings} {a : Analyzer} {text word : Text} (hlower : a.lowercase = true)
  (h : word ∈ a.tokens text)

include hlower h

/-- A word of a document is asked for by all of its words, since none is in capitals. -/
theorem isConjunction_of_mem_tokens : (s.engine a).isConjunction word = true := by
  refine ((s.engine a).isConjunction_iff word).mpr (.inr fun token htoken => ?_)
  have hsame : queryTokens a.punctuation false word = (s.engine a).tokens word := by
    rw [Engine.tokens, queryTokens_eq, queryTokens_eq, if_pos rfl,
      Analyzer.lower_of_mem_tokens hlower h]
    rfl
  have hmem : token ∈ (s.engine a).tokens word := hsame ▸ htoken
  exact (s.engine a).not_isKeyword_of_mem_tokens hmem

/-- A word of a document is the only word of itself if there are no parentheses in it. -/
theorem askedWords_of_mem_tokens (hword : ∀ c ∈ word, isParenthesis c = false) :
    (s.engine a).askedWords word = [word] := by
  have htokens : (s.engine a).tokens word = [word] := by
    rw [Engine.tokens, queryTokens_eq, if_pos rfl, Analyzer.lower_of_mem_tokens hlower h]
    exact (Analyzer.isToken_of_mem_tokens hlower h hword).tokensFrom_eq
  have hopening : word ≠ [.char '('] := ne_singleton_of_isParenthesis hword rfl
  have hclosing : word ≠ [.char ')'] := ne_singleton_of_isParenthesis hword rfl
  rw [Engine.askedWords, htokens, List.filter_cons_of_pos, List.filter_nil]
  simp [hopening, hclosing]

end Settings

namespace Index

/-- A word of a stored document finds it if there are no parentheses in the word. Whatever is in
it, it finds the document exactly when it has words as a query, and the document has the terms of
all of these. -/
theorem found_indexed_word {x : Index} {storage : IndexStorage} {now : Text} {name : Json}
    {entries : List Json} {s : Settings} (hx : Analyzer.ofOptions s.analysis = .ok x.analyzer)
    (hlower : s.analysis.lowercase = true)
    (h : (x.create storage now name entries).failure = none)
    (hbound : entries.length < Nat.pow 2 1023) {d : Int} {text : Text}
    (hd : (x.create storage now name entries).index.view.content d = .ok (some text)) {word : Text}
    (hword : word ∈ x.analyzer.tokens text) :
    ∃ ids, (s.engine x.analyzer).found (x.create storage now name entries).index.view word =
        .ok ids ∧
      ((∀ c ∈ word, isParenthesis c = false) → d ∈ ids) ∧
      (d ∈ ids ↔ (s.engine x.analyzer).askedWords word ≠ [] ∧
        ∀ part ∈ (s.engine x.analyzer).askedWords word,
          x.analyzer.stem part ∈ x.analyzer.terms text) := by
  have hlowercase := (Analyzer.of_ofOptions hx).1.trans hlower
  obtain ⟨ids, hids, -, hfound⟩ :=
    found_conjunction h hbound s (Settings.isConjunction_of_mem_tokens hlowercase hword)
  have hiff : d ∈ ids ↔ (s.engine x.analyzer).askedWords word ≠ [] ∧
      ∀ part ∈ (s.engine x.analyzer).askedWords word,
        x.analyzer.stem part ∈ x.analyzer.terms text := by
    rw [hfound, hd]
    simp
  refine ⟨ids, hids, fun hplain => ?_, hiff⟩
  rw [hiff, Settings.askedWords_of_mem_tokens hlowercase hword hplain]
  exact ⟨List.cons_ne_nil _ _, List.forall_mem_singleton.mpr (List.mem_map_of_mem hword)⟩

/-- The theorem at the last word of a text that has parentheses elsewhere: a capital I with dot and
a sigma at its end, which keep the form that lower case gave them. -/
theorem found_indexed_word_last :
    let s : Settings :=
      ⟨⟨⟨lower, [['t', 'h', 'e']]⟩, true, .str defaultPunctuation, .str "suffix".toText, true,
        true, .null⟩, .null, .null, .int 0, .null, ⟨false, []⟩⟩
    let a : Analyzer := ⟨true, defaultPunctuation, .suffix, [['t', 'h', 'e']]⟩
    let x : Index := .database (.new a ⟨false, [['d']]⟩)
    let text : Text := "The (dog) and \u0130.\u0391\u03A3!".toText
    let word : Text := "i\u0307\u03B1\u03C2".toText
    let entries := [Ingestion.pair 1 "a cow".toText, Ingestion.pair 2 text]
    word ∈ a.tokens text ∧
      ∃ ids, (s.engine a).found (x.create .empty [] (.str ['i']) entries).index.view word =
        .ok ids ∧ 2 ∈ ids := by
  intro s a x text word entries
  have h : (x.create .empty [] (.str ['i']) entries).failure = none := by decide +kernel
  have hbound : entries.length < Nat.pow 2 1023 := by decide +kernel
  have hstored : (Ingestion.accepted .empty entries).get? 2 = some text := by decide +kernel
  have hd : (x.create .empty [] (.str ['i']) entries).index.view.content 2 = .ok (some text) := by
    rw [view_create h]
    exact congrArg Except.ok hstored
  have hword : word ∈ a.tokens text := by decide +kernel
  have hplain : ∀ c ∈ word, isParenthesis c = false := forall_of_any_eq_false (by decide)
  obtain ⟨ids, hids, hfound, -⟩ := found_indexed_word (s := s) (x := x) rfl rfl h hbound hd hword
  exact ⟨hword, ids, hids, hfound hplain⟩

/-- A word of a document that stands in parentheses is not found: documents keep them inside of
the word, and a query looks for what is between them. -/
theorem indexed_word_in_parentheses_not_found :
    let s : Settings :=
      ⟨⟨⟨lower, []⟩, true, .str defaultPunctuation, .str "suffix".toText, true, false,
        .null⟩, .null, .null, .int 100, .null, ⟨false, []⟩⟩
    let a : Analyzer := ⟨true, defaultPunctuation, .suffix, []⟩
    let x : Index := .memory (.new a ⟨false, [['m']]⟩ (.value (.str "json".toText)))
    let text : Text := "a (dog) barks".toText
    let created := x.create .empty [] (.str ['i']) [Ingestion.pair 1 text]
    Analyzer.ofOptions s.analysis = .ok a ∧ created.failure = none ∧
      created.index.view.content 1 = .ok (some text) ∧ "(dog)".toText ∈ a.tokens text ∧
        (s.engine a).found created.index.view "(dog)".toText = .ok [] := by
  intro s a x text created
  have h : created.failure = none := by decide +kernel
  have hview : created.index.view =
      Collection.view a (Ingestion.accepted .empty [Ingestion.pair 1 text]) := view_create h
  rw [hview]
  exact ⟨rfl, h, by decide +kernel, by decide +kernel, by decide +kernel⟩

end Index

end Concordance
