import Concordance.Proofs.Conjunction

/-!
# What the tokens of a query are

The tokens of a query spell what is kept of it. Parentheses are tokens of their own, all
others are words. Two neighbours of which neither is a parenthesis belong to one word
unless a blank stands between them in the query. Only one list of tokens is like that,
whichever characters are punctuation, so nothing else is left to say about it.
-/
namespace Concordance

section Ends

variable {tokens others : List Text} {token front back : Text} {c d : CodePoint}

/-- A token ends behind the characters `front`. -/
def EndsBehind (tokens : List Text) (front : Text) : Prop :=
  ∃ done rest, tokens = done ++ rest ∧ done.flatten = front

/-- The next two characters behind `front` are `c` and `d`, and they belong to one token. -/
def Together (tokens : List Text) (front : Text) (c d : CodePoint) : Prop :=
  ∃ done before after rest,
    tokens = done ++ (before ++ c :: d :: after) :: rest ∧ done.flatten ++ before = front

theorem endsBehind_nil (tokens : List Text) : EndsBehind tokens [] := ⟨[], tokens, rfl, rfl⟩

theorem endsBehind_flatten (tokens : List Text) : EndsBehind tokens tokens.flatten :=
  ⟨tokens, [], (List.append_nil tokens).symm, rfl⟩

theorem endsBehind_head (token : Text) (rest : List Text) : EndsBehind (token :: rest) token :=
  ⟨[token], rest, rfl, List.flatten_singleton⟩

theorem EndsBehind.cons (h : EndsBehind tokens front) (token : Text) :
    EndsBehind (token :: tokens) (token ++ front) := by
  obtain ⟨done, rest, rfl, rfl⟩ := h
  exact ⟨token :: done, rest, rfl, rfl⟩

theorem Together.cons (h : Together tokens front c d) (token : Text) :
    Together (token :: tokens) (token ++ front) c d := by
  obtain ⟨done, before, after, rest, rfl, rfl⟩ := h
  exact ⟨token :: done, before, after, rest, rfl, List.append_assoc _ _ _⟩

/-- A token that ends behind some characters begins before them, unless there are none. -/
theorem EndsBehind.tail (h : EndsBehind (token :: tokens) front) (hfront : front ≠ []) :
    ∃ front', front = token ++ front' ∧ EndsBehind tokens front' := by
  obtain ⟨done, rest, heq, rfl⟩ := h
  cases done with
  | nil => exact absurd rfl hfront
  | cons t done =>
    obtain ⟨rfl, rfl⟩ := List.cons.inj heq
    exact ⟨done.flatten, rfl, done, rest, rfl, rfl⟩

/-- Two neighbours are in one token, or the first one ends its token. -/
theorem together_or_endsBehind (h : tokens.flatten = front ++ c :: d :: back) :
    Together tokens front c d ∨ EndsBehind tokens (front ++ [c]) := by
  induction tokens generalizing front with
  | nil => simp at h
  | cons token rest ih =>
    rw [List.flatten_cons, List.append_eq_append_iff] at h
    obtain ⟨front', rfl, hrest⟩ | ⟨more, rfl, hmore⟩ := h
    · rw [List.append_assoc]
      exact (ih hrest).imp (fun h => h.cons token) fun h => h.cons token
    · match more, hmore with
      | [], hmore =>
        have hnext : Together rest [] c d ∨ EndsBehind rest [c] := ih hmore.symm
        have hbehind := hnext.imp (fun h => h.cons front) fun h => h.cons front
        rwa [List.append_nil] at hbehind ⊢
      | [x], hmore =>
        obtain ⟨rfl, -⟩ := List.cons.inj hmore
        exact .inr (endsBehind_head _ rest)
      | x :: y :: after, hmore =>
        obtain ⟨rfl, hnext⟩ := List.cons.inj hmore
        obtain ⟨rfl, -⟩ := List.cons.inj hnext
        exact .inl ⟨[], front, after, rest, rfl, rfl⟩

theorem Together.not_endsBehind (h : Together tokens front c d) :
    ¬EndsBehind tokens (front ++ [c]) := by
  rintro ⟨done', rest', heq, hends⟩
  obtain ⟨done, before, after, rest, rfl, rfl⟩ := h
  have hlength := congrArg List.length hends
  obtain ⟨more, rfl, hmore⟩ | ⟨more, rfl, -⟩ := List.append_eq_append_iff.mp heq
  · cases more with
    | nil =>
      simp only [List.append_nil, List.length_append, List.length_singleton] at hlength
      omega
    | cons token more =>
      obtain ⟨rfl, -⟩ := List.cons.inj hmore
      simp only [List.flatten_append, List.flatten_cons, List.length_append, List.length_cons,
        List.length_nil] at hlength
      omega
  · simp only [List.flatten_append, List.length_append, List.length_singleton] at hlength
    omega

/-- Tokens that are not empty are told by where they end. -/
theorem eq_of_endsBehind_iff (htokens : ∀ t ∈ tokens, t ≠ []) (hothers : ∀ t ∈ others, t ≠ [])
    (h : ∀ front, EndsBehind tokens front ↔ EndsBehind others front) : tokens = others := by
  have hnone {token : Text} (htoken : token ≠ []) : ¬EndsBehind [] token := by
    rintro ⟨done, rest, heq, rfl⟩
    rw [(List.append_eq_nil_iff.mp heq.symm).1] at htoken
    exact htoken rfl
  induction tokens generalizing others with
  | nil =>
    cases others with
    | nil => rfl
    | cons other others =>
      have hother := hothers other List.mem_cons_self
      exact absurd ((h other).mpr (endsBehind_head other others)) (hnone hother)
  | cons token rest ih =>
    obtain ⟨htoken, hrest⟩ := List.forall_mem_cons.mp htokens
    cases others with
    | nil => exact absurd ((h token).mp (endsBehind_head token rest)) (hnone htoken)
    | cons other others =>
      obtain ⟨hother, hrest'⟩ := List.forall_mem_cons.mp hothers
      -- Each of the two first tokens begins with the other one.
      obtain ⟨more, hmore, -⟩ := ((h token).mp (endsBehind_head token rest)).tail htoken
      obtain ⟨more', hmore', -⟩ := ((h other).mpr (endsBehind_head other others)).tail hother
      have hlength := congrArg List.length hmore
      have hlength' := congrArg List.length hmore'
      rw [List.length_append] at hlength hlength'
      have hnil : more = [] := List.eq_nil_of_length_eq_zero (by omega)
      obtain rfl : token = other := by rw [hmore, hnil, List.append_nil]
      have hends (front : Text) : EndsBehind rest front ↔ EndsBehind others front := by
        have hne : token ++ front ≠ [] := List.append_ne_nil_of_left_ne_nil htoken front
        constructor
        · intro hfront
          obtain ⟨front', heq, hends⟩ := ((h _).mp (hfront.cons token)).tail hne
          rwa [List.append_cancel_left heq]
        · intro hfront
          obtain ⟨front', heq, hends⟩ := ((h _).mpr (hfront.cons token)).tail hne
          rwa [List.append_cancel_left heq]
      rw [ih hrest hrest' hends]

end Ends

section Cuts

variable {punctuation text : Text} {tokens others : List Text} {front : Text} {c d : CodePoint}

/-- A character that is kept of a query: all are but blanks, and punctuation other than
parentheses. -/
def isKept (punctuation : Text) (c : CodePoint) : Bool :=
  !isBlank c && (isParenthesis c || c ∉ punctuation)

/-- A text can be a token: it is a parenthesis, or a word. -/
def IsToken (punctuation token : Text) : Prop :=
  token = [.char '('] ∨ token = [.char ')'] ∨
    token ≠ [] ∧ ∀ c ∈ token, isInWord punctuation c = true

/-- Tokens are those of a text: they spell what is kept of it, each is a parenthesis or a word, and
where nothing is kept between two characters of words, these are in one word exactly if no blank is
between them. -/
structure IsCut (punctuation text : Text) (tokens : List Text) : Prop where
  kept : tokens.flatten = text.filter (isKept punctuation)
  token : ∀ token ∈ tokens, IsToken punctuation token
  together : ∀ front c gap d back, text = front ++ c :: (gap ++ d :: back) →
    isInWord punctuation c = true → isInWord punctuation d = true →
    (∀ k ∈ gap, isKept punctuation k = false) →
    (Together tokens (front.filter (isKept punctuation)) c d ↔ ∀ k ∈ gap, isBlank k = false)

theorem IsToken.ne_nil {token : Text} (h : IsToken punctuation token) : token ≠ [] := by
  obtain rfl | rfl | ⟨hne, -⟩ := h
  · exact List.cons_ne_nil _ _
  · exact List.cons_ne_nil _ _
  · exact hne

/-- A token of several characters is a word. -/
theorem IsToken.isInWord_neighbours {before after : Text}
    (h : IsToken punctuation (before ++ c :: d :: after)) :
    isInWord punctuation c = true ∧ isInWord punctuation d = true := by
  obtain h | h | ⟨-, h⟩ := h
  · exact absurd (congrArg List.length h) (by simp; omega)
  · exact absurd (congrArg List.length h) (by simp; omega)
  · exact ⟨h c (by simp), h d (by simp)⟩

/-- Two neighbours among the characters of a class, found in the text. -/
theorem exists_of_filter_eq {p : CodePoint → Bool} {back : Text}
    (h : text.filter p = front ++ c :: d :: back) :
    ∃ front' gap back', text = front' ++ c :: (gap ++ d :: back') ∧ front'.filter p = front ∧
      ∀ k ∈ gap, p k = false := by
  obtain ⟨before, rest, rfl, rfl, hrest⟩ := List.filter_eq_append_iff.mp h
  obtain ⟨skipped, rest, rfl, hskipped, hc, hrest⟩ := List.filter_eq_cons_iff.mp hrest
  obtain ⟨gap, back', rfl, hgap, -, -⟩ := List.filter_eq_cons_iff.mp hrest
  refine ⟨before ++ skipped, gap, back', by simp, ?_, fun k hk => Bool.eq_false_iff.mpr (hgap k hk)⟩
  rw [List.filter_append, List.filter_eq_nil_iff.mpr hskipped, List.append_nil]

namespace IsCut

/-- What one cut of a text leaves together is together in every other one. -/
theorem together_of_together (h : IsCut punctuation text tokens)
    (h' : IsCut punctuation text others) (htogether : Together tokens front c d) :
    Together others front c d := by
  obtain ⟨done, before, after, rest, heq, hfront⟩ := id htogether
  obtain ⟨hc, hd⟩ := (h.token (before ++ c :: d :: after) (by simp [heq])).isInWord_neighbours
  have hflatten :
      text.filter (isKept punctuation) = front ++ c :: d :: (after ++ rest.flatten) := by
    rw [← h.kept, heq, ← hfront]
    simp
  obtain ⟨front', gap, back, htext, rfl, hgap⟩ := exists_of_filter_eq hflatten
  rw [h.together front' c gap d back htext hc hd hgap] at htogether
  rwa [h'.together front' c gap d back htext hc hd hgap]

theorem endsBehind_of_endsBehind (h : IsCut punctuation text tokens)
    (h' : IsCut punctuation text others) (hends : EndsBehind tokens front) :
    EndsBehind others front := by
  obtain ⟨done, rest, heq, hdone⟩ := id hends
  have hflatten : others.flatten = front ++ rest.flatten := by
    rw [h'.kept, ← h.kept, heq, List.flatten_append, hdone]
  obtain rfl | ⟨front, c, rfl⟩ := List.eq_nil_or_concat front
  · exact endsBehind_nil others
  · cases hrest : rest.flatten with
    | nil =>
      rw [hrest, List.append_nil] at hflatten
      exact hflatten ▸ endsBehind_flatten others
    | cons d back =>
      rw [hrest, List.concat_eq_append, List.append_assoc] at hflatten
      rw [List.concat_eq_append] at hends ⊢
      refine (together_or_endsBehind hflatten).resolve_left fun htogether => ?_
      exact (h'.together_of_together h htogether).not_endsBehind hends

/-- A text is cut in one way only. -/
theorem unique (h : IsCut punctuation text tokens) (h' : IsCut punctuation text others) :
    tokens = others :=
  eq_of_endsBehind_iff (fun t ht => (h.token t ht).ne_nil) (fun t ht => (h'.token t ht).ne_nil)
    fun _ => ⟨h.endsBehind_of_endsBehind h', h'.endsBehind_of_endsBehind h⟩

end IsCut

end Cuts

section Reading

variable {punctuation current : Text} {c : CodePoint}

theorem isKept_of_isParenthesis (h : isParenthesis c = true) : isKept punctuation c = true := by
  have hblank : isBlank c = false :=
    Bool.eq_false_iff.mpr fun hblank => by simp [isParenthesis_of_isBlank hblank] at h
  simp [isKept, h, hblank]

theorem isKept_of_isBlank (h : isBlank c = true) : isKept punctuation c = false := by
  simp [isKept, h]

theorem isKept_of_mem (hparenthesis : isParenthesis c = false) (h : c ∈ punctuation) :
    isKept punctuation c = false := by
  simp [isKept, hparenthesis, h]

theorem isKept_of_isInWord (h : isInWord punctuation c = true) : isKept punctuation c = true := by
  simp only [isInWord, Bool.and_eq_true, Bool.not_eq_true'] at h
  simp only [isKept, h.1.2, h.2, Bool.not_false, Bool.or_true, Bool.and_true]

theorem flatten_finished (current : Text) : (finished current).flatten = current := by
  unfold finished
  split
  · next h => rw [h, List.flatten_nil]
  · exact List.flatten_singleton

theorem isToken_of_mem_finished (h : ∀ c ∈ current, isInWord punctuation c = true) {token : Text}
    (htoken : token ∈ finished current) : IsToken punctuation token := by
  unfold finished at htoken
  split at htoken
  · exact absurd htoken List.not_mem_nil
  · next hne =>
    rw [List.mem_singleton.mp htoken]
    exact .inr (.inr ⟨hne, h⟩)

/-- After the part `current` of a word, reading `front` gives the tokens `done`, and the part
`pending` of a word is left. -/
structure ReadsUpTo (punctuation current front : Text) (done : List Text) (pending : Text) :
    Prop where
  kept : done.flatten ++ pending = current ++ front.filter (isKept punctuation)
  token : ∀ token ∈ done, IsToken punctuation token
  begun : ∀ c ∈ pending, isInWord punctuation c = true
  resume : ∀ t,
    tokensFrom punctuation current (front ++ t) = done ++ tokensFrom punctuation pending t

/-- Whatever is read next: some tokens are done then, and a word may have begun. -/
theorem exists_readsUpTo (front current : Text) (h : ∀ c ∈ current, isInWord punctuation c = true) :
    ∃ done pending, ReadsUpTo punctuation current front done pending := by
  induction front generalizing current with
  | nil => exact ⟨[], current, by simp, nofun, h, fun _ => rfl⟩
  | cons c rest ih =>
    cases hparenthesis : isParenthesis c with
    | true =>
      obtain ⟨done, pending, hread⟩ := ih [] (List.forall_mem_nil _)
      refine ⟨finished current ++ [c] :: done, pending, ?_, ?_, hread.begun, fun t => ?_⟩
      · rw [List.filter_cons_of_pos (isKept_of_isParenthesis hparenthesis)]
        simpa [flatten_finished] using hread.kept
      · intro token htoken
        obtain htoken | htoken := List.mem_append.mp htoken
        · exact isToken_of_mem_finished h htoken
        · obtain rfl | htoken := List.mem_cons.mp htoken
          · simp only [isParenthesis, Bool.or_eq_true, decide_eq_true_eq] at hparenthesis
            obtain rfl | rfl := hparenthesis
            · exact .inl rfl
            · exact .inr (.inl rfl)
          · exact hread.token token htoken
      · rw [List.cons_append, tokensFrom_parenthesis hparenthesis, hread.resume, List.append_assoc]
        rfl
    | false =>
      cases hblank : isBlank c with
      | true =>
        obtain ⟨done, pending, hread⟩ := ih [] (List.forall_mem_nil _)
        refine ⟨finished current ++ done, pending, ?_, ?_, hread.begun, fun t => ?_⟩
        · rw [List.filter_cons_of_neg (by simp [isKept_of_isBlank hblank])]
          simpa [flatten_finished] using hread.kept
        · intro token htoken
          obtain htoken | htoken := List.mem_append.mp htoken
          · exact isToken_of_mem_finished h htoken
          · exact hread.token token htoken
        · rw [List.cons_append, tokensFrom_blank hblank, hread.resume, List.append_assoc]
      | false =>
        by_cases hmark : c ∈ punctuation
        · obtain ⟨done, pending, hread⟩ := ih current h
          refine ⟨done, pending, ?_, hread.token, hread.begun, fun t => ?_⟩
          · rw [List.filter_cons_of_neg (by simp [isKept_of_mem hparenthesis hmark])]
            exact hread.kept
          · rw [List.cons_append, tokensFrom_mark hparenthesis hblank hmark, hread.resume]
        · have hc : isInWord punctuation c = true := by simp [isInWord, hparenthesis, hblank, hmark]
          have hcurrent : ∀ k ∈ current ++ [c], isInWord punctuation k = true := by
            intro k hk
            obtain hk | hk := List.mem_append.mp hk
            · exact h k hk
            · rwa [List.mem_singleton.mp hk]
          obtain ⟨done, pending, hread⟩ := ih _ hcurrent
          refine ⟨done, pending, ?_, hread.token, hread.begun, fun t => ?_⟩
          · rw [List.filter_cons_of_pos (isKept_of_isInWord hc), hread.kept, List.append_assoc]
            rfl
          · rw [List.cons_append, tokensFrom_inWord hc, hread.resume]

theorem flatten_tokensFrom (h : ∀ c ∈ current, isInWord punctuation c = true) (t : Text) :
    (tokensFrom punctuation current t).flatten = current ++ t.filter (isKept punctuation) := by
  obtain ⟨done, pending, hread⟩ := exists_readsUpTo t current h
  have htokens := hread.resume []
  rw [List.append_nil] at htokens
  rw [htokens, List.flatten_append, tokensFrom, flatten_finished, hread.kept]

/-- A word that has begun goes on, or ends as it is. -/
theorem exists_tokensFrom_eq_cons (punctuation : Text) (hne : current ≠ []) (t : Text) :
    ∃ after rest, tokensFrom punctuation current t = (current ++ after) :: rest := by
  have hends (rest : List Text) :
      ∃ after rest', finished current ++ rest = (current ++ after) :: rest' :=
    ⟨[], rest, by rw [finished, if_neg hne, List.append_nil, List.singleton_append]⟩
  induction t generalizing current with
  | nil =>
    rw [tokensFrom]
    simpa using hends []
  | cons c t ih =>
    rw [tokensFrom]
    split
    · exact hends _
    · split
      · exact hends _
      · split
        · exact ih hne hends
        · have hne' : current ++ [c] ≠ [] := List.append_ne_nil_of_left_ne_nil hne [c]
          obtain ⟨after, rest, hrest⟩ := ih hne' fun rest =>
            ⟨[], rest, by rw [finished, if_neg hne', List.append_nil, List.singleton_append]⟩
          exact ⟨c :: after, rest, by rw [hrest, List.append_assoc, List.singleton_append]⟩

/-- Marks between two characters of a word are passed over. -/
theorem tokensFrom_gap {gap : Text} (hkept : ∀ k ∈ gap, isKept punctuation k = false)
    (hblank : ∀ k ∈ gap, isBlank k = false) (current t : Text) :
    tokensFrom punctuation current (gap ++ t) = tokensFrom punctuation current t := by
  induction gap with
  | nil => rfl
  | cons k rest ih =>
    obtain ⟨hk, hrest⟩ := List.forall_mem_cons.mp hkept
    obtain ⟨hkblank, hrestblank⟩ := List.forall_mem_cons.mp hblank
    simp only [isKept, hkblank, Bool.not_false, Bool.true_and, Bool.or_eq_false_iff,
      decide_eq_false_iff_not, not_not] at hk
    rw [List.cons_append, tokensFrom_mark hk.1 hkblank hk.2, ih hrest hrestblank]

theorem together_tokensFrom (punctuation front : Text) {c d : CodePoint} {gap : Text} (back : Text)
    (hc : isInWord punctuation c = true) (hd : isInWord punctuation d = true)
    (hgap : ∀ k ∈ gap, isKept punctuation k = false) :
    Together (tokensFrom punctuation [] (front ++ c :: (gap ++ d :: back)))
        (front.filter (isKept punctuation)) c d ↔ ∀ k ∈ gap, isBlank k = false := by
  constructor
  · intro htogether k hk
    rw [Bool.eq_false_iff]
    intro hblank
    -- A blank cuts the text in two, and a token ends before it.
    obtain ⟨gap, gap', rfl⟩ := List.append_of_mem hk
    refine htogether.not_endsBehind ⟨tokensFrom punctuation [] (front ++ c :: gap),
      tokensFrom punctuation [] (k :: (gap' ++ d :: back)), ?_, ?_⟩
    · rw [← tokensFrom_append (isSeparator_of_isBlank hblank)]
      simp
    · have hnone : gap.filter (isKept punctuation) = [] :=
        List.filter_eq_nil_iff.mpr fun k hk => by simp [hgap k (List.mem_append_left _ hk)]
      rw [flatten_tokensFrom (List.forall_mem_nil _), List.nil_append, List.filter_append,
        List.filter_cons_of_pos (isKept_of_isInWord hc), hnone]
  · intro hblank
    obtain ⟨done, pending, hread⟩ := exists_readsUpTo front [] (List.forall_mem_nil _)
    have hne : pending ++ [c] ++ [d] ≠ [] := List.append_ne_nil_of_right_ne_nil _ (by simp)
    obtain ⟨after, rest, hrest⟩ := exists_tokensFrom_eq_cons punctuation hne back
    refine ⟨done, pending, after, rest, ?_, hread.kept⟩
    rw [hread.resume, tokensFrom_inWord hc, tokensFrom_gap hgap hblank, tokensFrom_inWord hd, hrest]
    simp

theorem isCut_tokensFrom (punctuation text : Text) :
    IsCut punctuation text (tokensFrom punctuation [] text) where
  kept := flatten_tokensFrom (List.forall_mem_nil _) text
  token := by
    obtain ⟨done, pending, hread⟩ : ∃ done pending, ReadsUpTo punctuation [] text done pending :=
      exists_readsUpTo text [] (List.forall_mem_nil _)
    have htokens := hread.resume []
    rw [List.append_nil] at htokens
    rw [htokens]
    intro token htoken
    obtain htoken | htoken := List.mem_append.mp htoken
    · exact hread.token token htoken
    · exact isToken_of_mem_finished hread.begun htoken
  together := by
    rintro front c gap d back rfl hc hd hgap
    exact together_tokensFrom punctuation front back hc hd hgap

/-- A token is the only token of itself. -/
theorem IsToken.tokensFrom_eq {token : Text} (h : IsToken punctuation token) :
    tokensFrom punctuation [] token = [token] := by
  obtain rfl | rfl | ⟨hne, hword⟩ := h
  · exact tokensFrom_parenthesis rfl [] []
  · exact tokensFrom_parenthesis rfl [] []
  · have hread := tokensFrom_word hword [] []
    rw [List.append_nil, List.nil_append, tokensFrom, finished, if_neg hne] at hread
    exact hread

end Reading

/-- The tokens of a query are the one cut of what is left of it without blanks at its ends, put in
lower case as a whole if asked for. Written with spaces between them they give themselves again. -/
theorem queryTokens_eq_iff_isCut (punctuation : Text) (lowercase : Bool) (query : Text) :
    (∀ tokens, queryTokens punctuation lowercase query = tokens ↔
        IsCut punctuation (if lowercase then lower (trim query) else trim query) tokens) ∧
      queryTokens punctuation false (joinWith [' '] (queryTokens punctuation lowercase query)) =
        queryTokens punctuation lowercase query := by
  have hcut : IsCut punctuation (if lowercase then lower (trim query) else trim query)
      (queryTokens punctuation lowercase query) := isCut_tokensFrom punctuation _
  refine ⟨fun tokens => ⟨fun h => h ▸ hcut, fun h => hcut.unique h⟩, ?_⟩
  rw [queryTokens_spaced]
  have hself : ∀ token ∈ queryTokens punctuation lowercase query,
      queryTokens punctuation false token = [token] := by
    intro token htoken
    rw [queryTokens_eq]
    exact (hcut.token token htoken).tokensFrom_eq
  rw [List.flatMap_congr hself, List.flatMap_singleton']

/-- Parentheses and blanks are read as such even if they are named as punctuation. -/
example : queryTokens "( -)".toText true "(A-b c)-".toText =
    ["(".toText, "ab".toText, "c".toText, ")".toText] := by
  decide

end Concordance
