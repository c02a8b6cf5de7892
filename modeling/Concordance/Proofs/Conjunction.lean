import Concordance.Proofs.Backends
import Concordance.Proofs.Expressions
import Concordance.Proofs.QueryTokens
import Concordance.Proofs.Scan

/-!
# Words side by side are words with a connective between them

A query of words is answered by the common documents of all of them. The same words with
the connective between them in capitals are evaluated step by step, and come to the same
documents, ranked by the same words.
-/
namespace Concordance

namespace SearchWord

theorem not_isKeyword (w : SearchWord) : isKeyword w.text = false := by
  have hspells (op : Operator) : op.Spells op.keyword := by cases op <;> decide
  rw [isKeyword, List.any_eq_false]
  intro op _ hop
  have heq : op.keyword = w.text := of_decide_eq_true hop
  exact w.not_keyword op (heq ▸ hspells op)

end SearchWord

theorem conjunctionWords_texts (words : List SearchWord) :
    Engine.conjunctionWords (words.map SearchWord.text) = words.map SearchWord.text := by
  rw [Engine.conjunctionWords, List.filter_eq_self]
  intro token htoken
  obtain ⟨w, -, rfl⟩ := List.mem_map.mp htoken
  simp [w.not_opening, w.not_closing, w.not_isKeyword]

/-- The tokens of words with the connective in small letters before each of them. -/
def joined (words : List SearchWord) : List Text :=
  words.flatMap fun w => ["and".toText, w.text]

theorem ofToken_joined (words : List SearchWord) :
    (joined words).map Symbol.ofToken =
      words.flatMap fun w => [.connective .and, .word w.text] := by
  rw [joined, List.map_flatMap]
  refine List.flatMap_congr fun w _ => ?_
  rw [List.map_cons, List.map_singleton, Symbol.ofToken_word]
  rfl

theorem rankingWords_cons (w : SearchWord) (tokens : List Text) :
    rankingWords (w.text :: tokens) = w.text :: rankingWords tokens := by
  rw [rankingWords, List.filter_cons, Symbol.ofToken_word]
  rfl

theorem rankingWords_texts (words : List SearchWord) :
    rankingWords (words.map SearchWord.text) = words.map SearchWord.text := by
  induction words with
  | nil => rfl
  | cons w rest ih => rw [List.map_cons, rankingWords_cons, ih]

theorem rankingWords_joined (words : List SearchWord) :
    rankingWords (joined words) = words.map SearchWord.text := by
  induction words with
  | nil => rfl
  | cons w rest ih =>
    have hconnective (tokens : List Text) :
        rankingWords ("and".toText :: tokens) = rankingWords tokens := rfl
    rw [joined, List.flatMap_cons, List.cons_append, hconnective, List.singleton_append,
      rankingWords_cons, ← joined, ih, List.map_cons]

/-- A row of words behind connectives takes from a set what is not in the sets of all of them. -/
theorem evaluateFrom_joined (lookup : Text → Except Failure DocSet) (limit : DepthLimit)
    (depth : Nat) (words : List SearchWord) (s : DocSet) :
    evaluateFrom lookup limit depth [] ⟨[s], none⟩ ((joined words).map Symbol.ofToken) =
      ((words.map SearchWord.text).mapM lookup).map
        fun sets => (sets.foldl DocSet.inter s, []) := by
  rw [ofToken_joined]
  induction words generalizing s with
  | nil => rfl
  | cons w rest ih =>
    rw [List.flatMap_cons, List.cons_append, List.singleton_append, evaluateFrom, evaluateFrom,
      List.map_cons, List.mapM_cons]
    cases lookup w.text with
    | error e => rfl
    | ok t =>
      rw [ok_bind]
      show evaluateFrom lookup limit depth [] ⟨[s.inter t], none⟩ _ = _
      rw [ih]
      cases (rest.map SearchWord.text).mapM lookup <;> rfl

section Joining

variable {punctuation : Text} {lowercase : Bool}

theorem queryTokens_spaced (words : List Text) :
    queryTokens punctuation lowercase (joinWith [' '] words) =
      words.flatMap (queryTokens punctuation lowercase) := by
  induction words with
  | nil => cases lowercase <;> rfl
  | cons w rest ih =>
    cases rest with
    | nil => simp [joinWith]
    | cons w' rest =>
      rw [joinWith_cons_cons, List.singleton_append, queryTokens_append (c := ' ') rfl,
        queryTokens_blank rfl, ih]
      exact List.flatMap_cons.symm

/-- What stands between words that are joined by the connective. -/
def separatorAnd : Text := " AND ".toText

theorem queryTokens_joinWith_and (w : Text) (rest : List Text) :
    queryTokens defaultPunctuation lowercase (joinWith separatorAnd (w :: rest)) =
      queryTokens defaultPunctuation lowercase w ++ rest.flatMap fun w =>
        (if lowercase then "and".toText else "AND".toText) ::
          queryTokens defaultPunctuation lowercase w := by
  induction rest generalizing w with
  | nil => simp [joinWith]
  | cons w' rest ih =>
    have hjoin : joinWith separatorAnd (w :: w' :: rest) =
        w ++ .char ' ' :: ("AND".toText ++ .char ' ' :: joinWith separatorAnd (w' :: rest)) :=
      joinWith_cons_cons separatorAnd w w' rest
    have hand : queryTokens defaultPunctuation lowercase "AND".toText =
        [if lowercase then "and".toText else "AND".toText] := by
      cases lowercase <;> decide
    rw [hjoin, queryTokens_append (c := ' ') rfl, queryTokens_blank rfl,
      queryTokens_append (c := ' ') rfl, queryTokens_blank (c := ' ') rfl, hand, ih,
      List.flatMap_cons]
    rfl

end Joining

namespace Engine

variable {e : Engine} {v : IndexView}

/-- A text is one token, which is looked up. -/
def IsWord (e : Engine) (text : Text) (w : SearchWord) : Prop := e.tokens text = [w.text]

instance (e : Engine) (text : Text) (w : SearchWord) : Decidable (e.IsWord text w) :=
  inferInstanceAs (Decidable (e.tokens text = [w.text]))

theorem exists_words {texts : List Text} (h : ∀ t ∈ texts, ∃ w, e.IsWord t w) :
    ∃ words, List.Forall₂ e.IsWord texts words := by
  induction texts with
  | nil => exact ⟨[], .nil⟩
  | cons t rest ih =>
    obtain ⟨⟨w, hw⟩, hrest⟩ := List.forall_mem_cons.mp h
    obtain ⟨words, hwords⟩ := ih hrest
    exact ⟨w :: words, .cons hw hwords⟩

theorem tokens_spaced {texts : List Text} {words : List SearchWord}
    (h : List.Forall₂ e.IsWord texts words) :
    e.tokens (joinWith [' '] texts) = words.map SearchWord.text := by
  rw [tokens, queryTokens_spaced]
  induction h with
  | nil => rfl
  | cons hw _ ih =>
    rw [List.flatMap_cons, ih, List.map_cons]
    exact congrArg (· ++ _) hw

theorem tokens_joinWith_and (hmarks : e.punctuation = defaultPunctuation) {t : Text}
    {w : SearchWord} (hw : e.IsWord t w) {texts : List Text} {words : List SearchWord}
    (h : List.Forall₂ e.IsWord texts words) :
    e.tokens (joinWith separatorAnd (t :: texts)) = w.text :: joined words := by
  have hrest : (texts.flatMap fun t => "and".toText :: e.tokens t) = joined words := by
    induction h with
    | nil => rfl
    | cons hw _ ih =>
      rw [List.flatMap_cons, ih, hw, joined, joined, List.flatMap_cons]
  have ht : queryTokens defaultPunctuation true t = [w.text] := by
    rw [← hmarks]
    exact hw
  rw [tokens, hmarks, queryTokens_joinWith_and, ht, ← hrest, List.singleton_append]
  simp only [tokens, hmarks, if_true]

/-- A query without a connective in capitals asks for all of its words. -/
theorem isConjunction_of_words (hmarks : e.punctuation = defaultPunctuation) {query : Text}
    {words : List SearchWord} (h : e.tokens query = words.map SearchWord.text) :
    e.isConjunction query = true := by
  rw [isConjunction, Bool.or_eq_true]
  refine .inr ?_
  rw [Bool.not_eq_true', List.any_eq_false]
  intro raw hraw hkeyword
  rw [hmarks] at hraw
  obtain ⟨token, htoken, op, hspells⟩ := exists_spells_of_isKeyword hraw hkeyword
  rw [tokens, hmarks] at h
  rw [h, List.mem_map] at htoken
  obtain ⟨w, -, rfl⟩ := htoken
  exact w.not_keyword op hspells

theorem matching_of_words (hmarks : e.punctuation = defaultPunctuation) {query : Text}
    {words : List SearchWord} (h : e.tokens query = words.map SearchWord.text) :
    e.matching v query =
      ((words.map SearchWord.text).mapM fun word => v.postings (e.stemmer.stem word)).map
        fun sets => (DocSet.interMany sets).1 := by
  rw [matching, isConjunction_of_words hmarks h, if_pos rfl, h, conjunction, conjunctionWords_texts]
  cases (words.map SearchWord.text).mapM fun word => v.postings (e.stemmer.stem word) <;> rfl

/-- Words with the connective between them are evaluated to their common documents. -/
theorem boolean_joined {depth : Int} (hdepth : e.maxDepth = .int depth) (hstart : 0 ≤ depth)
    (w : SearchWord) (words : List SearchWord) :
    e.boolean v (w.text :: joined words) =
      (((w :: words).map SearchWord.text).mapM fun word => v.postings (e.stemmer.stem word)).map
        fun sets => (DocSet.interMany sets).1 := by
  have hlimit : e.depthLimit (w.text :: joined words).length = .ok (.whole depth) := by
    rw [depthLimit, hdepth]
    rfl
  have hopen : ¬(DepthLimit.whole depth).greatest < (0 : Nat) := by
    show ¬depth < (0 : Nat)
    omega
  rw [boolean, hlimit, ok_bind, evaluate, evaluateGroup, if_neg hopen, List.map_cons,
    Symbol.ofToken_word, evaluateFrom, List.map_cons, List.mapM_cons]
  cases v.postings (e.stemmer.stem w.text) with
  | error failure => rfl
  | ok s =>
    rw [ok_bind]
    show (evaluateFrom _ _ 0 [] ⟨[s], none⟩ _).map Prod.fst = _
    rw [evaluateFrom_joined]
    cases (words.map SearchWord.text).mapM fun word => v.postings (e.stemmer.stem word) with
    | error failure => rfl
    | ok sets =>
      show Except.ok (sets.foldl DocSet.inter s) = .ok (s.interAll sets).1
      rw [DocSet.interAll_eq_foldl]

theorem isConjunction_joinWith_and (hmarks : e.punctuation = defaultPunctuation) {t : Text}
    {w : SearchWord} (hw : e.IsWord t w) {texts : List Text} {words : List SearchWord}
    (h : List.Forall₂ e.IsWord texts words) (hne : texts ≠ []) :
    e.isConjunction (joinWith separatorAnd (t :: texts)) = false := by
  rw [isConjunction, Bool.or_eq_false_iff, tokens_joinWith_and hmarks hw h, hmarks,
    queryTokens_joinWith_and]
  cases h with
  | nil => contradiction
  | cons =>
    constructor
    · simp only [joined, List.flatMap_cons, List.length_cons, List.length_append,
        decide_eq_false_iff_not]
      omega
    · rw [Bool.not_eq_false', List.any_eq_true]
      exact ⟨"AND".toText, by simp, by decide⟩

variable {depth : Int} {texts : List Text}

/-- Words match the same documents side by side and with the connective between them. -/
theorem matching_joinWith_and (hmarks : e.punctuation = defaultPunctuation)
    (hdepth : e.maxDepth = .int depth) (hstart : 0 ≤ depth) {words : List SearchWord}
    (h : List.Forall₂ e.IsWord texts words) (v : IndexView) :
    e.matching v (joinWith separatorAnd texts) = e.matching v (joinWith [' '] texts) := by
  cases h with
  | nil => rfl
  | @cons t w texts words hw hwords =>
    by_cases hne : texts = []
    · -- One word has no connective, and the two queries are one.
      rw [hne]
      rfl
    · rw [matching, isConjunction_joinWith_and hmarks hw hwords hne, if_neg Bool.false_ne_true,
        tokens_joinWith_and hmarks hw hwords, boolean_joined hdepth hstart,
        matching_of_words hmarks (tokens_spaced (.cons hw hwords))]

theorem rankingWords_joinWith_and (hmarks : e.punctuation = defaultPunctuation)
    {words : List SearchWord} (h : List.Forall₂ e.IsWord texts words) :
    rankingWords (e.tokens (joinWith separatorAnd texts)) =
      rankingWords (e.tokens (joinWith [' '] texts)) := by
  cases h with
  | nil => rfl
  | cons hw hwords =>
    rw [tokens_joinWith_and hmarks hw hwords, tokens_spaced (.cons hw hwords), rankingWords_texts,
      rankingWords_cons, rankingWords_joined, List.map_cons]

/-- Whatever is searched, the hits are the same, and so is what goes wrong. -/
theorem search_joinWith_and (hmarks : e.punctuation = defaultPunctuation)
    (hdepth : e.maxDepth = .int depth) (hstart : 0 ≤ depth)
    (hwords : ∀ t ∈ texts, ∃ w, e.IsWord t w) (v : IndexView) :
    e.search v (joinWith [' '] texts) = e.search v (joinWith separatorAnd texts) := by
  obtain ⟨words, h⟩ := exists_words hwords
  rw [search, search, matching_joinWith_and hmarks hdepth hstart h,
    rankingWords_joinWith_and hmarks h]

end Engine

namespace Index

variable {x : Index} {storage : IndexStorage} {now : Text} {name : Json} {entries : List Json}

/-- The counts of an index that was created fit together. The bound on the entries, from which on a
quotient of counts may be no double, is far beyond the length of any list that a machine holds. -/
theorem sound_create (h : (x.create storage now name entries).failure = none)
    (hbound : entries.length < Nat.pow 2 1023) :
    (x.create storage now name entries).index.view.toCounts.Sound := by
  rw [view_create h]
  exact Collection.counts_sound
    (Nat.lt_of_le_of_lt (Ingestion.size_accepted_empty_le entries) hbound)

theorem postings_create (h : (x.create storage now name entries).failure = none) (t : Text) :
    ∃ s, (x.create storage now name entries).index.view.postings t = .ok s := by
  rw [view_create h]
  exact ⟨_, Collection.postings_view t⟩

/-- Words side by side are searched as the same words with the connective between them: the hits
are the same, in the same order and with the same scores, and an index that was created has them. -/
theorem search_words (h : (x.create storage now name entries).failure = none)
    (hbound : entries.length < Nat.pow 2 1023) {e : Engine}
    (hmarks : e.punctuation = defaultPunctuation) {depth : Int} (hdepth : e.maxDepth = .int depth)
    (hstart : 0 ≤ depth) {texts : List Text} (hwords : ∀ t ∈ texts, ∃ w, e.IsWord t w) :
    (∀ v, e.search v (joinWith [' '] texts) = e.search v (joinWith separatorAnd texts)) ∧
      ∃ hits, e.search (x.create storage now name entries).index.view (joinWith [' '] texts) =
        .ok hits := by
  refine ⟨Engine.search_joinWith_and hmarks hdepth hstart hwords, ?_⟩
  obtain ⟨words, hforall⟩ := Engine.exists_words hwords
  have htokens := Engine.tokens_spaced hforall
  obtain ⟨sets, -, hsets, -⟩ := e.mapM_alike (R := fun _ _ => True)
    (fun t => (postings_create h t).elim fun s hs => ⟨s, s, hs, hs, trivial⟩)
    (words.map SearchWord.text)
  obtain ⟨hits, hhits⟩ := (sound_create h hbound).score (DocSet.interMany sets).1.ids
    ((rankingWords (e.tokens (joinWith [' '] texts))).map e.stemmer.stem)
  refine ⟨hits, ?_⟩
  rw [Engine.search, Engine.matching_of_words hmarks htokens, hsets]
  exact hhits

/-- The theorem at a word that is asked for twice, one with a mark after it, and one that occurs
nowhere. -/
theorem search_words_four_words :
    let a : Analyzer := ⟨true, defaultPunctuation, .suffix, []⟩
    let x : Index := .database (.new a ⟨false, [['d']]⟩)
    let entries := [Ingestion.pair 1 "cats".toText, Ingestion.pair 2 "A dog and its cat".toText]
    let e : Engine := ⟨a.punctuation, a.stemmer, .int 0, .null⟩
    let created := (x.create .empty [] (.str ['i']) entries).index
    let texts := ["Cats".toText, "dog,".toText, "cow".toText, "Cats".toText]
    (∀ v, e.search v (joinWith [' '] texts) = e.search v (joinWith separatorAnd texts)) ∧
      ∃ hits, e.search created.view (joinWith [' '] texts) = .ok hits := by
  intro a x entries e created texts
  have h : (x.create .empty [] (.str ['i']) entries).failure = none := by decide +kernel
  have hbound : entries.length < Nat.pow 2 1023 := by decide +kernel
  have hcat : ∃ w, e.IsWord "Cats".toText w :=
    ⟨⟨"cats".toText, by decide, by decide, by rintro (_ | _ | _) <;> decide⟩, by decide +kernel⟩
  have hdog : ∃ w, e.IsWord "dog,".toText w :=
    ⟨⟨"dog".toText, by decide, by decide, by rintro (_ | _ | _) <;> decide⟩, by decide +kernel⟩
  have hcow : ∃ w, e.IsWord "cow".toText w :=
    ⟨⟨"cow".toText, by decide, by decide, by rintro (_ | _ | _) <;> decide⟩, by decide +kernel⟩
  have hwords : ∀ t ∈ texts, ∃ w, e.IsWord t w := by
    simp only [texts, List.forall_mem_cons]
    exact ⟨hcat, hdog, hcow, hcat, nofun⟩
  exact search_words h hbound rfl rfl (Int.le_refl 0) hwords

end Index

end Concordance
