import Concordance.Proofs.Conjunction

/-!
# Queries compose as sets

A query whose parentheses are balanced has the same value in a group of a longer query as
on its own. So two such queries in parentheses, with a connective between them, find what
the connective makes of the documents that they find.
-/
namespace Concordance

section Evaluation

variable (lookup : Text → Except Failure DocSet) (limit : DepthLimit)

/-- Symbols that close the levels that are open before them, and those that they open, are read
inside other levels as they are read alone. A closing parenthesis hands their value on. -/
theorem evaluateFrom_group {symbols : List Symbol} {inner : List Level}
    (h : levelsAfter inner.length symbols = some 0) (base : Nat) (level up : Level)
    (outer : List Level) (rest : List Symbol) :
    evaluateFrom lookup limit (base + inner.length) (inner ++ up :: outer) level
        (symbols ++ .closing :: rest) =
      (evaluateFrom lookup limit (base + inner.length) inner level symbols >>= fun r =>
        evaluateFrom lookup limit (base - 1) outer (up.push r.1) rest) := by
  induction symbols generalizing inner level with
  | nil =>
    have hinner : inner = [] := List.length_eq_zero_iff.mp (Option.some.inj h)
    subst hinner
    rfl
  | cons symbol symbols ih =>
    cases symbol with
    | opening =>
      rw [List.cons_append, evaluateFrom, evaluateFrom]
      split
      · rfl
      · exact @ih (level :: inner) h .start
    | closing =>
      cases inner with
      | nil => contradiction
      | cons up' inner => exact @ih inner h (up'.push level.value)
    | connective op => exact ih h _
    | word w =>
      rw [List.cons_append, evaluateFrom, evaluateFrom]
      cases lookup w with
      | ok s => exact ih h _
      | error e => rfl

/-- A group of symbols that close what they open has the value that they have alone. -/
theorem evaluateFrom_balanced {symbols : List Symbol} (h : levelsAfter 0 symbols = some 0)
    (base : Nat) (level up : Level) (outer : List Level) (rest : List Symbol) :
    evaluateFrom lookup limit base (up :: outer) level (symbols ++ .closing :: rest) =
      (evaluateFrom lookup limit base [] level symbols >>= fun r =>
        evaluateFrom lookup limit (base - 1) outer (up.push r.1) rest) :=
  @evaluateFrom_group lookup limit symbols [] h base level up outer rest

/-- What can be evaluated at some depth can be evaluated one level higher, with the same result. -/
theorem evaluateFrom_higher {symbols : List Symbol} {base : Nat} {inner : List Level}
    {level : Level} {r : DocSet × List Symbol}
    (h : evaluateFrom lookup limit (base + 1 + inner.length) inner level symbols = .ok r) :
    evaluateFrom lookup limit (base + inner.length) inner level symbols = .ok r := by
  induction symbols generalizing inner level with
  | nil => exact h
  | cons symbol symbols ih =>
    cases symbol with
    | opening =>
      rw [evaluateFrom] at h ⊢
      split at h
      · cases h
      · next hdeep =>
        rw [if_neg (by omega)]
        exact @ih (level :: inner) .start h
    | closing =>
      cases inner with
      | nil => exact h
      | cons up inner => exact @ih inner (up.push level.value) h
    | connective op => exact ih h
    | word w =>
      rw [evaluateFrom] at h ⊢
      cases hw : lookup w with
      | ok s =>
        rw [hw] at h
        exact ih h
      | error e =>
        rw [hw] at h
        cases h

variable {lookup : Text → Except Failure DocSet} {limit : DepthLimit}

/-- Two groups with a connective between them. -/
def groupsOf (op : Operator) (left right : List Symbol) : List Symbol :=
  .opening :: (left ++ .closing :: .connective op :: .opening :: (right ++ [.closing]))

theorem evaluateGroup_of_inner {symbols : List Symbol} {r : DocSet × List Symbol}
    (hstart : ¬limit.greatest < (0 : Nat))
    (h : evaluateFrom lookup limit 1 [] .start symbols = .ok r) :
    evaluateGroup lookup limit 0 symbols = .ok r := by
  rw [evaluateGroup, if_neg hstart]
  exact @evaluateFrom_higher lookup limit symbols 0 [] .start r h

/-- Two groups with a connective between them have the value that the connective makes of the
values of what is in them, each of which can be evaluated alone. -/
theorem evaluateGroup_groupsOf {op : Operator} {left right : List Symbol}
    (hleft : levelsAfter 0 left = some 0) (hright : levelsAfter 0 right = some 0)
    {r : DocSet × List Symbol}
    (h : evaluateGroup lookup limit 0 (groupsOf op left right) = .ok r) :
    ∃ s t, evaluateGroup lookup limit 0 left = .ok s ∧
      evaluateGroup lookup limit 0 right = .ok t ∧ r.1 = op.apply s.1 t.1 := by
  rw [evaluateGroup] at h
  split at h
  · cases h
  · next hstart =>
    rw [groupsOf, evaluateFrom] at h
    split at h
    · cases h
    · next hdeep =>
      rw [Nat.zero_add, evaluateFrom_balanced _ _ hleft, bind_eq_ok_iff] at h
      obtain ⟨s, hs, h⟩ := h
      rw [evaluateFrom, evaluateFrom, if_neg hdeep, Nat.sub_self, Nat.zero_add,
        evaluateFrom_balanced _ _ hright, bind_eq_ok_iff] at h
      obtain ⟨t, ht, h⟩ := h
      refine ⟨s, t, evaluateGroup_of_inner hstart hs, evaluateGroup_of_inner hstart ht, ?_⟩
      cases h
      rfl

end Evaluation

namespace Engine

/-- The query of two queries in parentheses, with a connective in capitals between them. -/
def compose (op : Operator) (left right : Text) : Text :=
  '(' :: (left ++ .char ')' :: .char ' ' ::
    (op.keyword ++ .char ' ' :: .char '(' :: (right ++ [.char ')'])))

example : compose .not "cat dog".toText "OR".toText = "(cat dog) NOT (OR)".toText := rfl

theorem queryTokens_compose (punctuation : Text) (lowercase : Bool) (op : Operator)
    (left right : Text) :
    queryTokens punctuation lowercase (compose op left right) =
      [.char '('] :: (queryTokens punctuation lowercase left ++ [.char ')'] ::
        (queryTokens punctuation lowercase op.keyword ++ [.char '('] ::
          (queryTokens punctuation lowercase right ++ [[.char ')']]))) := by
  have hopening : isParenthesis '(' = true := rfl
  have hclosing : isParenthesis ')' = true := rfl
  have hblank : isBlank ' ' = true := rfl
  have hnil : queryTokens punctuation lowercase [] = [] := by cases lowercase <;> rfl
  rw [compose, queryTokens_parenthesis hopening, queryTokens_append (c := ')') rfl,
    queryTokens_parenthesis hclosing, queryTokens_blank hblank, queryTokens_append (c := ' ') rfl,
    queryTokens_blank hblank, queryTokens_parenthesis hopening, queryTokens_append (c := ')') rfl,
    queryTokens_parenthesis hclosing, hnil]

/-- A query that keeps its meaning in parentheses: its own are balanced, and it is evaluated as a
boolean query or has at most one token, and that is no connective. -/
structure IsPart (e : Engine) (query : Text) : Prop where
  balanced : Balanced query
  routed : e.isConjunction query = false ∨ (e.tokens query).length ≤ 1 ∧
    ∀ token ∈ e.tokens query, ∀ op : Operator, ¬op.Spells token

variable {e : Engine} {depth : Int} {v : IndexView} {op : Operator} {left right : Text}

def symbols (e : Engine) (query : Text) : List Symbol := (e.tokens query).map Symbol.ofToken

theorem symbols_compose (hmarks : e.punctuation = defaultPunctuation) (op : Operator)
    (left right : Text) :
    e.symbols (compose op left right) = groupsOf op (e.symbols left) (e.symbols right) := by
  have hop : (queryTokens defaultPunctuation true op.keyword).map Symbol.ofToken =
      [.connective op] := by cases op <;> decide
  rw [symbols, tokens, hmarks, queryTokens_compose, List.map_cons, List.map_append, List.map_cons,
    List.map_append, hop, List.map_cons, List.map_append, groupsOf, symbols, symbols, tokens,
    tokens, hmarks]
  rfl

/-- A connective in capitals makes a query a boolean one. -/
theorem isConjunction_compose (hmarks : e.punctuation = defaultPunctuation) (op : Operator)
    (left right : Text) : e.isConjunction (compose op left right) = false := by
  have hop : op.keyword ∈ queryTokens defaultPunctuation false op.keyword := by
    cases op <;> decide
  have hkeyword : isKeyword op.keyword = true := by cases op <;> decide
  rw [isConjunction, tokens, hmarks, queryTokens_compose, queryTokens_compose, Bool.or_eq_false_iff]
  constructor
  · simp only [List.length_cons, List.length_append, decide_eq_false_iff_not]
    omega
  · rw [Bool.not_eq_false', List.any_eq_true]
    exact ⟨op.keyword, by simp [hop], hkeyword⟩

theorem matching_eq_evaluateGroup (hdepth : e.maxDepth = .int depth) {query : Text}
    (h : e.isConjunction query = false) :
    e.matching v query = (evaluateGroup (fun word => v.postings (e.stemmer.stem word))
      (.whole depth) 0 (e.symbols query)).map Prod.fst := by
  have hlimit : e.depthLimit (e.tokens query).length = .ok (.whole depth) := by
    rw [depthLimit, hdepth]
    rfl
  rw [matching, h, if_neg Bool.false_ne_true, boolean, hlimit, ok_bind]
  rfl

theorem levelsAfter_symbols (h : Balanced left) : levelsAfter 0 (e.symbols left) = some 0 := by
  rw [symbols, tokens, levelsAfter_queryTokens]
  exact h

/-- A token that is a query of balanced parentheses, and no connective, is looked up. -/
theorem searchWord_of_balanced {token : Text} (hbalanced : Balanced left)
    (htoken : e.tokens left = [token]) (hword : ∀ op : Operator, ¬op.Spells token) :
    ∃ w : SearchWord, w.text = token := by
  have hlevels := levelsAfter_symbols (e := e) hbalanced
  rw [symbols, htoken] at hlevels
  refine ⟨⟨token, ?_, ?_, hword⟩, rfl⟩
  · rintro rfl
    contradiction
  · rintro rfl
    contradiction

/-- A query that can be a part matches on its own what its symbols are evaluated to. -/
theorem IsPart.matching (hpart : e.IsPart left) (hdepth : e.maxDepth = .int depth)
    {r : DocSet × List Symbol}
    (h : evaluateGroup (fun word => v.postings (e.stemmer.stem word)) (.whole depth) 0
      (e.symbols left) = .ok r) : e.matching v left = .ok r.1 := by
  obtain hboolean | ⟨hshort, hword⟩ := hpart.routed
  · rw [matching_eq_evaluateGroup hdepth hboolean, h]
    rfl
  · have hconjunction : e.isConjunction left = true := by simp [isConjunction, hshort]
    rw [Engine.matching, hconjunction, if_pos rfl]
    rw [evaluateGroup] at h
    split at h
    · cases h
    · cases htokens : e.tokens left with
      | nil =>
        rw [symbols, htokens] at h
        cases h
        rfl
      | cons token rest =>
        rw [htokens] at hshort hword
        have hrest : rest = [] := by
          rw [List.length_cons] at hshort
          exact List.length_eq_zero_iff.mp (by omega)
        subst hrest
        obtain ⟨w, rfl⟩ := searchWord_of_balanced hpart.balanced htokens
          (hword token List.mem_cons_self)
        rw [symbols, htokens, List.map_singleton, Symbol.ofToken_word, evaluateFrom] at h
        have hwords : conjunctionWords [w.text] = [w.text] := conjunctionWords_texts [w]
        rw [conjunction, hwords, List.mapM_cons]
        cases hs : v.postings (e.stemmer.stem w.text) with
        | error failure =>
          rw [hs] at h
          cases h
        | ok s =>
          rw [hs] at h
          cases h
          rfl

/-- Two queries in parentheses with a connective between them match what the connective makes of
the matches of the two. -/
theorem matching_compose (hmarks : e.punctuation = defaultPunctuation)
    (hdepth : e.maxDepth = .int depth) (hleft : e.IsPart left) (hright : e.IsPart right)
    {docs : DocSet} (h : e.matching v (compose op left right) = .ok docs) :
    ∃ s t, e.matching v left = .ok s ∧ e.matching v right = .ok t ∧ docs = op.apply s t := by
  rw [matching_eq_evaluateGroup hdepth (isConjunction_compose hmarks op left right),
    symbols_compose hmarks] at h
  obtain ⟨r, hr, rfl⟩ := map_eq_ok_iff.mp h
  obtain ⟨s, t, hs, ht, hdocs⟩ := evaluateGroup_groupsOf (levelsAfter_symbols hleft.balanced)
    (levelsAfter_symbols hright.balanced) hr
  exact ⟨s.1, t.1, hleft.matching hdepth hs, hright.matching hdepth ht, hdocs⟩

/-- Whatever is searched, what two queries in parentheses find is what the connective between them
makes of what they find on their own. -/
theorem mem_found_compose (hmarks : e.punctuation = defaultPunctuation)
    (hdepth : e.maxDepth = .int depth) (hleft : e.IsPart left) (hright : e.IsPart right)
    {ids l r : List Int} (hids : e.found v (compose op left right) = .ok ids)
    (hl : e.found v left = .ok l) (hr : e.found v right = .ok r) :
    {d | d ∈ ids} = op.denote {d | d ∈ l} {d | d ∈ r} := by
  obtain ⟨docs, hdocs, -, hmem⟩ := matching_of_found hids
  obtain ⟨s, t, hs, ht, rfl⟩ := matching_compose hmarks hdepth hleft hright hdocs
  obtain ⟨s', hs', -, hmemLeft⟩ := matching_of_found hl
  obtain ⟨t', ht', -, hmemRight⟩ := matching_of_found hr
  rw [hs] at hs'
  rw [ht] at ht'
  cases hs'
  cases ht'
  ext d
  rw [Set.mem_ofPred_eq, hmem]
  exact Operator.mem_denote (hmemLeft d).symm (hmemRight d).symm

end Engine

namespace Index

variable {x : Index} {storage : IndexStorage} {now : Text} {name : Json} {entries : List Json}

/-- An index that was created is searched without failure, unless parentheses nest too deeply. -/
theorem found_create (h : (x.create storage now name entries).failure = none)
    (hbound : entries.length < Nat.pow 2 1023) {e : Engine} {query : Text} {docs : DocSet}
    (hdocs : e.matching (x.create storage now name entries).index.view query = .ok docs) :
    ∃ ids, e.found (x.create storage now name entries).index.view query = .ok ids :=
  (Engine.found_eq_ok (sound_create h hbound) hdocs).imp fun _ hids => hids.1

/-- Two queries in parentheses, with a connective between them, find what the connective makes of
what they find on their own, in every index. In one that was created all three are answered, unless
the parentheses nest too deeply. -/
theorem found_compose (h : (x.create storage now name entries).failure = none)
    (hbound : entries.length < Nat.pow 2 1023) {e : Engine}
    (hmarks : e.punctuation = defaultPunctuation) {depth : Int} (hdepth : e.maxDepth = .int depth)
    (op : Operator) {left right : Text} (hleft : e.IsPart left) (hright : e.IsPart right) :
    let created := (x.create storage now name entries).index
    let query := Engine.compose op left right
    (∀ (y : Index) (ids l r : List Int), e.found y.view query = .ok ids →
      e.found y.view left = .ok l → e.found y.view right = .ok r →
        {d | d ∈ ids} = op.denote {d | d ∈ l} {d | d ∈ r}) ∧
      (e.found created.view query ≠ .error (Engine.nestingFailure depth) →
        ∃ ids l r, e.found created.view query = .ok ids ∧ e.found created.view left = .ok l ∧
          e.found created.view right = .ok r ∧
            {d | d ∈ ids} = op.denote {d | d ∈ l} {d | d ∈ r}) := by
  intro created query
  have hany (y : Index) (ids l r : List Int) (hids : e.found y.view query = .ok ids)
      (hl : e.found y.view left = .ok l) (hr : e.found y.view right = .ok r) :=
    Engine.mem_found_compose hmarks hdepth hleft hright hids hl hr
  refine ⟨hany, fun hfound => ?_⟩
  obtain ⟨docs, hdocs⟩ := Engine.exists_matching hdepth (postings_create h) fun herror =>
    hfound ((Engine.found_eq_error_iff (sound_create h hbound)).mpr herror)
  obtain ⟨s, t, hs, ht, -⟩ := Engine.matching_compose hmarks hdepth hleft hright hdocs
  obtain ⟨ids, hids⟩ := found_create h hbound hdocs
  obtain ⟨l, hl⟩ := found_create h hbound hs
  obtain ⟨r, hr⟩ := found_create h hbound ht
  exact ⟨ids, l, r, hids, hl, hr, hany created ids l r hids hl hr⟩

/-- The theorem at a query of words side by side with a connective that is left without a word, and
a query of one word. -/
theorem found_compose_trailing_connective :
    let a : Analyzer := ⟨true, defaultPunctuation, .suffix, []⟩
    let x : Index := .memory (.new a ⟨false, [['m']]⟩ (.value (.str ['j'])))
    let entries := [Ingestion.pair 1 "cats".toText, Ingestion.pair 2 "A dog".toText,
      Ingestion.pair 3 "dog and cat".toText]
    let e : Engine := ⟨a.punctuation, a.stemmer, .int 5, .null⟩
    let created := (x.create .empty [] (.str ['i']) entries).index
    let left := "cow (cat) OR".toText
    let right := "Dogs.".toText
    ∃ ids l r, e.found created.view (Engine.compose .not left right) = .ok ids ∧
      e.found created.view left = .ok l ∧ e.found created.view right = .ok r ∧
        {d | d ∈ ids} = Operator.not.denote {d | d ∈ l} {d | d ∈ r} := by
  intro a x entries e created left right
  have h : (x.create .empty [] (.str ['i']) entries).failure = none := by decide +kernel
  have hbound : entries.length < Nat.pow 2 1023 := by decide +kernel
  have hleft : e.IsPart left := ⟨by decide, .inl (by decide +kernel)⟩
  have htokens : e.tokens right = ["dogs".toText] := by decide +kernel
  have hright : e.IsPart right := by
    refine ⟨by decide, .inr ?_⟩
    rw [htokens]
    refine ⟨Nat.le_refl 1, List.forall_mem_singleton.mpr fun op => ?_⟩
    cases op <;> decide
  have hdocs : e.matching created.view (Engine.compose .not left right) =
      .ok (.ofList [1]) := by decide +kernel
  obtain ⟨ids, hids⟩ := found_create h hbound hdocs
  exact (found_compose h hbound rfl rfl .not hleft hright).2 (by rw [hids]; nofun)

end Index

end Concordance
