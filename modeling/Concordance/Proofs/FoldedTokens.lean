import Concordance.Proofs.QueryCut

/-!
# Tokens put in lower case one by one

A query may be put in lower case before it is cut into tokens, or its tokens after that.
A character becomes the same ones either way, but for a capital sigma, whose form depends
on the letters around it. Blanks and parentheses end the search for these letters in the
query as the end of a token does. Marks of punctuation are gone from a token, so it is they
that make a difference.
-/
namespace Concordance

section Sigmas

/-- Whether a capital sigma ends a word between the reversed text `before` and the text `after`. -/
def endsWord (before after : Text) : Bool := meetsCased before && !meetsCased after

/-- The text without its marks of punctuation. -/
def withoutMarks (t : Text) : Text := t.filter (· ∉ defaultPunctuation)

/-- Each capital sigma of a text that follows the reversed text `before` ends a word exactly if it
does so where marks are left out. -/
def SigmasKept (before t : Text) : Prop :=
  ∀ front after, t = front ++ .char '\u03A3' :: after →
    endsWord (front.reverse ++ before) after =
      endsWord (withoutMarks (front.reverse ++ before)) (withoutMarks after)

/-- The character, or a plain sigma in place of a final one. -/
def plainSigma (c : CodePoint) : CodePoint := if c = '\u03C2' then '\u03C3' else c

/-- The text with a plain sigma in place of each final one. -/
def plainSigmas (t : Text) : Text := t.map plainSigma

variable {before rest : Text} {c : CodePoint}

theorem sigmasKept_nil (before : Text) : SigmasKept before [] := by
  intro front after h
  simp at h

theorem sigmasKept_cons_iff :
    SigmasKept before (c :: rest) ↔
      (c = '\u03A3' →
        endsWord before rest = endsWord (withoutMarks before) (withoutMarks rest)) ∧
      SigmasKept (c :: before) rest := by
  constructor
  · intro h
    refine ⟨?_, fun front after hrest => ?_⟩
    · rintro rfl
      exact h [] rest rfl
    · have hfront := h (c :: front) after (by rw [hrest, List.cons_append])
      rwa [List.reverse_cons, List.append_assoc, List.singleton_append] at hfront
  · rintro ⟨hhead, htail⟩ front after h
    cases front with
    | nil =>
      obtain ⟨rfl, rfl⟩ := List.cons.inj h
      exact hhead rfl
    | cons d front =>
      obtain ⟨rfl, hrest⟩ := List.cons.inj h
      have hfront := htail front after hrest
      rwa [List.reverse_cons, List.append_assoc, List.singleton_append]

theorem withoutMarks_of_mem (h : c ∈ defaultPunctuation) (t : Text) :
    withoutMarks (c :: t) = withoutMarks t :=
  List.filter_cons_of_neg (by simpa using h)

theorem withoutMarks_of_notMem (h : c ∉ defaultPunctuation) (t : Text) :
    withoutMarks (c :: t) = c :: withoutMarks t :=
  List.filter_cons_of_pos (by simpa using h)

end Sigmas

section Pieces

variable {c : CodePoint}

/-- The lower-case form of a character up to the form of sigma, which alone depends on the
characters around it. -/
def plainLower (c : CodePoint) : Text := plainSigmas (lowerBetween [] [] c)

theorem plainSigmas_lowerBetween (before after : Text) (c : CodePoint) :
    plainSigmas (lowerBetween before after c) = plainLower c := by
  rw [plainLower, lowerBetween, lowerBetween]
  split
  · rfl
  · split
    · split <;> rfl
    · rfl

theorem plainSigma_of_isOutside (h : isOutside c = true) : plainSigma c = c := by
  rw [plainSigma, if_neg]
  rintro rfl
  contradiction

theorem isOutside_plainSigma (h : isOutside c = false) : isOutside (plainSigma c) = false := by
  unfold plainSigma
  split
  · rfl
  · exact h

theorem plainLower_of_isOutside (h : isOutside c = true) : plainLower c = [c] := by
  rw [plainLower, lowerBetween_of_isOutside h, plainSigmas, List.map_singleton,
    plainSigma_of_isOutside h]

theorem plainLower_of_not_isOutside (h : isOutside c = false) :
    plainLower c ≠ [] ∧ ∀ c' ∈ plainLower c, isOutside c' = false := by
  obtain ⟨hne, hinside⟩ := lowerBetween_of_not_isOutside h [] []
  refine ⟨List.map_eq_nil_iff.not.mpr hne, fun c' hc' => ?_⟩
  obtain ⟨d, hd, rfl⟩ := List.mem_map.mp hc'
  exact isOutside_plainSigma (hinside d hd)

theorem plainSigmas_lowerFrom (before t : Text) :
    plainSigmas (lowerFrom before t) = t.flatMap plainLower := by
  induction t generalizing before with
  | nil => rfl
  | cons c rest ih =>
    rw [lowerFrom, plainSigmas, List.map_append, List.flatMap_cons]
    exact congrArg₂ (· ++ ·) (plainSigmas_lowerBetween before rest c) (ih (c :: before))

/-- Two surroundings give a character the same form exactly if it is no capital sigma that ends a
word in one of them only. -/
theorem lowerBetween_eq_iff {before after before' after' : Text} :
    lowerBetween before after c = lowerBetween before' after' c ↔
      (c = '\u03A3' → endsWord before after = endsWord before' after') := by
  by_cases hsigma : c = '\u03A3'
  · subst hsigma
    simp only [lowerBetween, endsWord, forall_const]
    cases meetsCased before && !meetsCased after <;>
      cases meetsCased before' && !meetsCased after' <;> decide
  · rw [lowerBetween, lowerBetween, if_neg hsigma, if_neg hsigma]
    simp [hsigma]

theorem length_lowerBetween (before after : Text) (c : CodePoint) :
    (lowerBetween before after c).length = (plainLower c).length := by
  rw [← plainSigmas_lowerBetween before after, plainSigmas, List.length_map]

end Pieces

section Tokens

variable {c : CodePoint} {current : Text}

theorem notMem_of_isSeparator (h : isSeparator c = true) : c ∉ defaultPunctuation := by
  intro hmark
  simp only [defaultPunctuation, List.mem_cons, List.not_mem_nil, or_false] at hmark
  obtain rfl | rfl | rfl | rfl := hmark <;> contradiction

theorem notMem_of_isInWord {punctuation : Text} (h : isInWord punctuation c = true) :
    c ∉ punctuation := by
  simp only [isInWord, Bool.and_eq_true, decide_eq_true_eq] at h
  exact h.2

/-- Where separators and marks stay and other characters become characters of words, a text may be
rewritten before it is cut or after. -/
theorem map_flatMap_tokensFrom {g : CodePoint → Text}
    (houtside : ∀ c, isOutside c = true → g c = [c])
    (hinside : ∀ c, isOutside c = false → g c ≠ [] ∧ ∀ c' ∈ g c, isOutside c' = false)
    (current t : Text) :
    (tokensFrom defaultPunctuation current t).map (·.flatMap g) =
      tokensFrom defaultPunctuation (current.flatMap g) (t.flatMap g) := by
  have hne (c : CodePoint) : g c ≠ [] := by
    cases hc : isOutside c with
    | true => exact houtside c hc ▸ List.cons_ne_nil c []
    | false => exact (hinside c hc).1
  have hfinished (current : Text) :
      (finished current).map (·.flatMap g) = finished (current.flatMap g) := by
    cases current with
    | nil => rfl
    | cons d rest => simp [finished, hne d]
  induction t generalizing current with
  | nil => exact hfinished current
  | cons c rest ih =>
    rw [List.flatMap_cons]
    cases hc : isOutside c with
    | false =>
      have hword : ∀ c' ∈ g c, isInWord defaultPunctuation c' = true :=
        fun c' hc' => isInWord_default ((hinside c hc).2 c' hc')
      rw [tokensFrom_inWord (isInWord_default hc), tokensFrom_word hword, ih, List.flatMap_append,
        List.flatMap_singleton]
    | true =>
      rw [houtside c hc, List.singleton_append]
      obtain hparenthesis | hblank | ⟨hparenthesis, hblank, hmark⟩ := isOutside_cases hc
      · rw [tokensFrom_parenthesis hparenthesis, tokensFrom_parenthesis hparenthesis,
          List.map_append, hfinished, List.map_cons, ih, List.flatMap_singleton, houtside c hc]
        rfl
      · rw [tokensFrom_blank hblank, tokensFrom_blank hblank, List.map_append, hfinished, ih]
        rfl
      · rw [tokensFrom_mark hparenthesis hblank hmark, tokensFrom_mark hparenthesis hblank hmark,
          ih]

/-- Final sigmas may be written as plain ones before a text is cut or after. -/
theorem map_plainSigmas_tokensFrom (t : Text) :
    (tokensFrom defaultPunctuation [] t).map plainSigmas =
      tokensFrom defaultPunctuation [] (plainSigmas t) := by
  have hflatMap : plainSigmas = (·.flatMap fun c => [plainSigma c]) :=
    funext fun _ => List.map_eq_flatMap
  have houtside (c : CodePoint) (h : isOutside c = true) : [plainSigma c] = [c] := by
    rw [plainSigma_of_isOutside h]
  have hinside (c : CodePoint) (h : isOutside c = false) :
      [plainSigma c] ≠ [] ∧ ∀ c' ∈ [plainSigma c], isOutside c' = false :=
    ⟨List.cons_ne_nil _ _, List.forall_mem_singleton.mpr (isOutside_plainSigma h)⟩
  rw [hflatMap]
  exact map_flatMap_tokensFrom houtside hinside [] t

/-- Up to the form of sigma, a text may be put in lower case before it is cut or after. -/
theorem map_plainSigmas_lower_tokensFrom (t : Text) :
    (tokensFrom defaultPunctuation [] t).map (fun token => plainSigmas (lower token)) =
      (tokensFrom defaultPunctuation [] (lower t)).map plainSigmas := by
  calc (tokensFrom defaultPunctuation [] t).map (fun token => plainSigmas (lower token))
      = (tokensFrom defaultPunctuation [] t).map (·.flatMap plainLower) :=
        List.map_congr_left fun token _ => plainSigmas_lowerFrom [] token
    _ = tokensFrom defaultPunctuation [] (t.flatMap plainLower) :=
        map_flatMap_tokensFrom (fun _ => plainLower_of_isOutside)
          (fun _ => plainLower_of_not_isOutside) [] t
    _ = tokensFrom defaultPunctuation [] (plainSigmas (lower t)) := by
        rw [lower, plainSigmas_lowerFrom]
    _ = (tokensFrom defaultPunctuation [] (lower t)).map plainSigmas :=
        (map_plainSigmas_tokensFrom (lower t)).symm

theorem not_isOutside_lower (h : ∀ c ∈ current, isOutside c = false) :
    ∀ c ∈ lower current, isOutside c = false := by
  intro c hc
  obtain ⟨d, hd, front, back, hfrom⟩ := mem_lowerFrom hc
  exact (lowerBetween_of_not_isOutside (h d hd) front back).2 c hfrom

theorem filter_isKept_eq_self (h : ∀ c ∈ current, isOutside c = false) :
    current.filter (isKept defaultPunctuation) = current :=
  List.filter_eq_self.mpr fun c hc => isKept_of_isInWord (isInWord_default (h c hc))

/-- Tokens in lower case spell what is kept of the text without marks in lower case: the search for
the neighbours of a letter ends with the token, and at a separator in the text. -/
theorem flatten_map_lower_tokensFrom (h : ∀ c ∈ current, isOutside c = false) (t : Text) :
    ((tokensFrom defaultPunctuation current t).map lower).flatten =
      (lower (current ++ withoutMarks t)).filter (isKept defaultPunctuation) := by
  have hfinished {current : Text} (h : ∀ c ∈ current, isOutside c = false) :
      ((finished current).map lower).flatten =
        (lower current).filter (isKept defaultPunctuation) := by
    rw [filter_isKept_eq_self (not_isOutside_lower h)]
    cases current with
    | nil => rfl
    | cons d rest => exact List.flatten_singleton
  -- The induction goes along the reading of the text, and the word begun so far goes with it.
  induction t generalizing current with
  | nil =>
    rw [withoutMarks, List.filter_nil, List.append_nil]
    exact hfinished h
  | cons c rest ih =>
    cases hc : isOutside c with
    | false =>
      have hin := isInWord_default hc
      have hcurrent : ∀ d ∈ current ++ [c], isOutside d = false :=
        List.forall_mem_append.mpr ⟨h, List.forall_mem_singleton.mpr hc⟩
      rw [tokensFrom_inWord hin, ih hcurrent, withoutMarks_of_notMem (notMem_of_isInWord hin),
        List.append_assoc, List.singleton_append]
    | true =>
      have hrest := ih (List.forall_mem_nil _)
      rw [List.nil_append] at hrest
      obtain hparenthesis | hblank | ⟨hparenthesis, hblank, hmark⟩ := isOutside_cases hc
      · have hseparator := isSeparator_of_isParenthesis hparenthesis
        rw [tokensFrom_parenthesis hparenthesis, List.map_append, List.flatten_append, hfinished h,
          List.map_cons, List.flatten_cons, hrest,
          withoutMarks_of_notMem (notMem_of_isSeparator hseparator), lower_append hseparator,
          List.filter_append, List.filter_cons_of_pos (isKept_of_isParenthesis hparenthesis),
          lower_cons hseparator]
        rfl
      · have hseparator := isSeparator_of_isBlank hblank
        rw [tokensFrom_blank hblank, List.map_append, List.flatten_append, hfinished h, hrest,
          withoutMarks_of_notMem (notMem_of_isSeparator hseparator), lower_append hseparator,
          List.filter_append, List.filter_cons_of_neg (by simp [isKept_of_isBlank hblank])]
      · rw [tokensFrom_mark hparenthesis hblank hmark, withoutMarks_of_mem hmark, ih h]

end Tokens

section Kept

variable {c : CodePoint} {before rest : Text}

/-- What is kept of a text in lower case is the same with and without marks exactly if no capital
sigma takes another form for want of them. -/
theorem filter_lowerFrom_withoutMarks_iff (before t : Text) :
    (lowerFrom (withoutMarks before) (withoutMarks t)).filter (isKept defaultPunctuation) =
        (lowerFrom before t).filter (isKept defaultPunctuation) ↔
      SigmasKept before t := by
  induction t generalizing before with
  | nil => exact iff_of_true rfl (sigmasKept_nil before)
  | cons c rest ih =>
    rw [sigmasKept_cons_iff, ← ih (c :: before), lowerFrom, List.filter_append]
    cases hc : isOutside c with
    | false =>
      have hmark := notMem_of_isInWord (isInWord_default hc)
      have hself (before after : Text) :
          (lowerBetween before after c).filter (isKept defaultPunctuation) =
            lowerBetween before after c :=
        filter_isKept_eq_self (lowerBetween_of_not_isOutside hc before after).2
      have hlength : (lowerBetween (withoutMarks before) (withoutMarks rest) c).length =
          (lowerBetween before rest c).length := by
        rw [length_lowerBetween, length_lowerBetween]
      rw [withoutMarks_of_notMem hmark, withoutMarks_of_notMem hmark, lowerFrom,
        List.filter_append, hself, hself, @eq_comm Bool, ← lowerBetween_eq_iff]
      constructor
      · exact fun h => List.append_inj h hlength
      · rintro ⟨hhead, htail⟩
        rw [hhead, htail]
    | true =>
      have hsigma : c = '\u03A3' →
          endsWord before rest = endsWord (withoutMarks before) (withoutMarks rest) :=
        fun heq => absurd (heq ▸ hc) (by decide)
      rw [and_iff_right hsigma, lowerBetween_of_isOutside hc]
      by_cases hmark : c ∈ defaultPunctuation
      · have hparenthesis : isParenthesis c = false := Bool.eq_false_iff.mpr fun hparenthesis =>
          notMem_of_isSeparator (isSeparator_of_isParenthesis hparenthesis) hmark
        rw [withoutMarks_of_mem hmark, withoutMarks_of_mem hmark,
          List.filter_cons_of_neg (by simp [isKept_of_mem hparenthesis hmark])]
        rfl
      · rw [withoutMarks_of_notMem hmark, withoutMarks_of_notMem hmark, lowerFrom,
          List.filter_append, lowerBetween_of_isOutside hc, List.append_cancel_left_eq]

end Kept

/-- Up to the form of sigma, the tokens of a query are the same if it is put in lower case before it
is cut or its tokens after that. They are the same altogether exactly if marks of punctuation decide
for no capital sigma whether it ends a word. -/
theorem map_lower_queryTokens (query : Text) :
    (queryTokens defaultPunctuation false query).map (fun token => plainSigmas (lower token)) =
        (queryTokens defaultPunctuation true query).map plainSigmas ∧
      ((queryTokens defaultPunctuation false query).map lower =
          queryTokens defaultPunctuation true query ↔
        SigmasKept [] query) := by
  rw [queryTokens_eq, queryTokens_eq, if_pos rfl, if_neg Bool.false_ne_true]
  have hplain := map_plainSigmas_lower_tokensFrom query
  refine ⟨hplain, ?_⟩
  have hlengths : ((tokensFrom defaultPunctuation [] query).map lower).map List.length =
      (tokensFrom defaultPunctuation [] (lower query)).map List.length := by
    have hplainLengths := congrArg (List.map List.length) hplain
    simpa [plainSigmas, Function.comp_def] using hplainLengths
  have hnone : ∀ c ∈ ([] : Text), isOutside c = false := List.forall_mem_nil _
  rw [List.eq_iff_flatten_eq, and_iff_left hlengths, flatten_map_lower_tokensFrom hnone,
    flatten_tokensFrom (List.forall_mem_nil _), List.nil_append, List.nil_append]
  exact filter_lowerFrom_withoutMarks_iff [] query

/-- A comma behind a capital sigma lets it end a word in the query, though the token goes on. -/
theorem map_lower_queryTokens_ne :
    (queryTokens defaultPunctuation false ['A', '\u03A3', ',', 'B']).map lower ≠
      queryTokens defaultPunctuation true ['A', '\u03A3', ',', 'B'] := by
  decide +kernel

end Concordance
