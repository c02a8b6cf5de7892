import Concordance.Proofs.Case
import Concordance.Proofs.Keywords
import Mathlib.Data.List.Forall2

/-!
# The tokens of the parts of a query

A query is cut at parentheses and at blanks, so its tokens are those of the parts in
between. Lower case changes neither how many tokens there are nor where parentheses
stand, and a connective stays one.
-/
namespace Concordance

/-- What blanks at both ends do not change is the same for a trimmed text. -/
theorem apply_trim {β : Type} (f : Text → β) (hfront : ∀ c t, isBlank c = true → f (c :: t) = f t)
    (hback : ∀ t c, isBlank c = true → f (t ++ [c]) = f t) (t : Text) : f (trim t) = f t := by
  have hdrop (g : Text → β) (hg : ∀ c t, isBlank c = true → g (c :: t) = g t) (t : Text) :
      g (t.dropWhile isBlank) = g t := by
    induction t with
    | nil => rfl
    | cons c rest ih =>
      rw [List.dropWhile_cons]
      split
      · next hc => rw [ih, hg c rest hc]
      · rfl
  have hend : f ((t.dropWhile isBlank).reverse.dropWhile isBlank).reverse =
      f (t.dropWhile isBlank).reverse.reverse :=
    hdrop (fun t => f t.reverse) (fun c t hc => by rw [List.reverse_cons, hback _ c hc]) _
  rw [trim, trimBy, hend, List.reverse_reverse, hdrop f hfront]

section Separators

variable {punctuation : Text} {c : CodePoint}

theorem isParenthesis_of_isBlank (h : isBlank c = true) : isParenthesis c = false := by
  rw [Bool.eq_false_iff]
  intro hc
  simp only [isParenthesis, Bool.or_eq_true, decide_eq_true_eq] at hc
  obtain rfl | rfl := hc <;> contradiction

theorem isSeparator_of_isBlank (h : isBlank c = true) : isSeparator c = true := by
  rw [isSeparator, h, Bool.or_true]

theorem isSeparator_of_isParenthesis (h : isParenthesis c = true) : isSeparator c = true := by
  rw [isSeparator, h, Bool.true_or]

/-- A text without parentheses is not one of them. -/
theorem ne_singleton_of_isParenthesis {t : Text} (ht : ∀ c ∈ t, isParenthesis c = false)
    (hc : isParenthesis c = true) : t ≠ [c] := by
  rintro rfl
  rw [ht c List.mem_cons_self] at hc
  contradiction

theorem tokensFrom_blank (h : isBlank c = true) (current t : Text) :
    tokensFrom punctuation current (c :: t) = finished current ++ tokensFrom punctuation [] t := by
  rw [tokensFrom, if_neg (by simp [isParenthesis_of_isBlank h]), if_pos h]

theorem tokensFrom_parenthesis (h : isParenthesis c = true) (current t : Text) :
    tokensFrom punctuation current (c :: t) =
      finished current ++ [c] :: tokensFrom punctuation [] t := by
  rw [tokensFrom, if_pos h]

theorem tokensFrom_separator (h : isSeparator c = true) (current t : Text) :
    tokensFrom punctuation current (c :: t) =
      finished current ++ tokensFrom punctuation [] (c :: t) := by
  rw [isSeparator, Bool.or_eq_true] at h
  obtain h | h := h
  · rw [tokensFrom_parenthesis h, tokensFrom_parenthesis h]
    rfl
  · rw [tokensFrom_blank h, tokensFrom_blank h]
    rfl

/-- The tokens before and behind a separator do not depend on each other. -/
theorem tokensFrom_append (h : isSeparator c = true) (current s t : Text) :
    tokensFrom punctuation current (s ++ c :: t) =
      tokensFrom punctuation current s ++ tokensFrom punctuation [] (c :: t) := by
  induction s generalizing current with
  | nil => exact tokensFrom_separator h current t
  | cons d rest ih =>
    rw [List.cons_append, tokensFrom, tokensFrom, ih, ih, ih]
    split
    · rw [List.append_assoc]
      rfl
    · split
      · rw [List.append_assoc]
      · split <;> rfl

/-- A character of words: neither a separator nor punctuation. -/
def isInWord (punctuation : Text) (c : CodePoint) : Bool :=
  !isParenthesis c && !isBlank c && c ∉ punctuation

theorem isInWord_default (h : isOutside c = false) : isInWord defaultPunctuation c = true := by
  simpa [isInWord, isOutside, isSeparator, and_assoc] using h

theorem tokensFrom_inWord (h : isInWord punctuation c = true) (current t : Text) :
    tokensFrom punctuation current (c :: t) = tokensFrom punctuation (current ++ [c]) t := by
  simp only [isInWord, Bool.and_eq_true, Bool.not_eq_true', decide_eq_true_eq] at h
  obtain ⟨⟨hparenthesis, hblank⟩, hmark⟩ := h
  rw [tokensFrom, hparenthesis, hblank, if_neg Bool.false_ne_true, if_neg Bool.false_ne_true,
    if_neg hmark]

theorem tokensFrom_mark (hparenthesis : isParenthesis c = false) (hblank : isBlank c = false)
    (h : c ∈ punctuation) (current t : Text) :
    tokensFrom punctuation current (c :: t) = tokensFrom punctuation current t := by
  rw [tokensFrom, hparenthesis, hblank, if_neg Bool.false_ne_true, if_neg Bool.false_ne_true,
    if_pos h]

theorem tokensFrom_word {s : Text} (h : ∀ c ∈ s, isInWord punctuation c = true) (current t : Text) :
    tokensFrom punctuation current (s ++ t) = tokensFrom punctuation (current ++ s) t := by
  induction s generalizing current with
  | nil => rw [List.nil_append, List.append_nil]
  | cons c rest ih =>
    obtain ⟨hc, hrest⟩ := List.forall_mem_cons.mp h
    rw [List.cons_append, tokensFrom_inWord hc, ih hrest, List.append_assoc]
    rfl

/-- Blanks at both ends of a query give no tokens. -/
theorem queryTokens_eq (punctuation : Text) (lowercase : Bool) (query : Text) :
    queryTokens punctuation lowercase query =
      tokensFrom punctuation [] (if lowercase then lower query else query) := by
  cases lowercase with
  | false =>
    refine apply_trim (tokensFrom punctuation []) (fun c t hc => tokensFrom_blank hc [] t) ?_ query
    intro t c hc
    rw [tokensFrom_append (isSeparator_of_isBlank hc), tokensFrom_blank hc]
    exact List.append_nil _
  | true =>
    refine apply_trim (fun t => tokensFrom punctuation [] (lower t)) ?_ ?_ query
    · intro c t hc
      rw [lower_cons (isSeparator_of_isBlank hc)]
      exact tokensFrom_blank hc [] (lower t)
    · intro t c hc
      rw [lower_append (isSeparator_of_isBlank hc), tokensFrom_append (isSeparator_of_isBlank hc),
        tokensFrom_blank hc]
      exact List.append_nil _

variable {lowercase : Bool}

theorem queryTokens_append (h : isSeparator c = true) (s t : Text) :
    queryTokens punctuation lowercase (s ++ c :: t) =
      queryTokens punctuation lowercase s ++ queryTokens punctuation lowercase (c :: t) := by
  simp only [queryTokens_eq]
  cases lowercase with
  | false => exact tokensFrom_append h [] s t
  | true =>
    simp only [if_true]
    rw [lower_append h, lower_cons h, tokensFrom_append h]

theorem queryTokens_blank (h : isBlank c = true) (t : Text) :
    queryTokens punctuation lowercase (c :: t) = queryTokens punctuation lowercase t := by
  simp only [queryTokens_eq]
  cases lowercase with
  | false => exact tokensFrom_blank h [] t
  | true =>
    simp only [if_true]
    rw [lower_cons (isSeparator_of_isBlank h), tokensFrom_blank h]
    rfl

theorem queryTokens_parenthesis (h : isParenthesis c = true) (t : Text) :
    queryTokens punctuation lowercase (c :: t) = [c] :: queryTokens punctuation lowercase t := by
  simp only [queryTokens_eq]
  cases lowercase with
  | false => exact tokensFrom_parenthesis h [] t
  | true =>
    simp only [if_true]
    rw [lower_cons (isSeparator_of_isParenthesis h), tokensFrom_parenthesis h]
    rfl

end Separators

section Lowered

/-- A token comes from another one by lower case. All that is kept of this is what it says of
tokens in ASCII. -/
def Lowered (raw token : Text) : Prop :=
  (∀ c ∈ raw, c.toNat < 128) → token = raw.map CodePoint.toLower

theorem Lowered.append {raw token : Text} (h : Lowered raw token) (c : CodePoint)
    (before after : Text) :
    Lowered (raw ++ [c]) (token ++ lowerBetween before after c) := by
  intro hascii
  have hraw := h fun d hd => hascii d (List.mem_append_left _ hd)
  have hc := hascii c (List.mem_append_right _ List.mem_cons_self)
  rw [hraw, lowerBetween_ascii hc, List.map_append]
  rfl

theorem finished_lowered {raw token : Text} (h : Lowered raw token)
    (hnil : raw = [] ↔ token = []) : List.Forall₂ Lowered (finished raw) (finished token) := by
  unfold finished
  by_cases hraw : raw = []
  · rw [if_pos hraw, if_pos (hnil.mp hraw)]
    exact .nil
  · rw [if_neg hraw, if_neg fun htoken => hraw (hnil.mpr htoken)]
    exact .cons h .nil

/-- The tokens of a text and of its lower-case form correspond to each other. -/
theorem tokensFrom_lowered (t before : Text) {raw token : Text} (h : Lowered raw token)
    (hnil : raw = [] ↔ token = []) :
    List.Forall₂ Lowered (tokensFrom defaultPunctuation raw t)
      (tokensFrom defaultPunctuation token (lowerFrom before t)) := by
  have hempty : Lowered [] [] := fun _ => rfl
  induction t generalizing before raw token with
  | nil => exact finished_lowered h hnil
  | cons c rest ih =>
    rw [lowerFrom]
    cases hc : isOutside c with
    | false =>
      obtain ⟨hne, hin⟩ := lowerBetween_of_not_isOutside hc before rest
      rw [tokensFrom_inWord (isInWord_default hc),
        tokensFrom_word fun c' hc' => isInWord_default (hin c' hc')]
      exact ih _ (h.append c before rest) (by simp [hne])
    | true =>
      have hself : Lowered [c] [c] := fun hascii =>
        (lowerBetween_of_isOutside hc [] []).symm.trans
          (lowerBetween_ascii (hascii c List.mem_cons_self) [] [])
      rw [lowerBetween_of_isOutside hc, List.singleton_append]
      obtain hparenthesis | hblank | ⟨hparenthesis, hblank, hmark⟩ := isOutside_cases hc
      · rw [tokensFrom_parenthesis hparenthesis, tokensFrom_parenthesis hparenthesis]
        exact List.rel_append (finished_lowered h hnil) (.cons hself (ih _ hempty Iff.rfl))
      · rw [tokensFrom_blank hblank, tokensFrom_blank hblank]
        exact List.rel_append (finished_lowered h hnil) (ih _ hempty Iff.rfl)
      · rw [tokensFrom_mark hparenthesis hblank hmark, tokensFrom_mark hparenthesis hblank hmark]
        exact ih _ h hnil

theorem queryTokens_lowered (query : Text) :
    List.Forall₂ Lowered (queryTokens defaultPunctuation false query)
      (queryTokens defaultPunctuation true query) := by
  rw [queryTokens_eq, queryTokens_eq]
  exact tokensFrom_lowered query [] (fun _ => rfl) Iff.rfl

/-- A keyword in lower case still spells its connective. -/
theorem Lowered.spells {raw token : Text} (h : Lowered raw token) (hraw : isKeyword raw = true) :
    ∃ op : Operator, op.Spells token := by
  simp only [isKeyword, List.any_eq_true, decide_eq_true_eq] at hraw
  obtain ⟨op, -, rfl⟩ := hraw
  refine ⟨op, ?_⟩
  have hascii : ∀ c ∈ op.keyword, c.toNat < 128 := by cases op <;> simp [Operator.keyword]
  rw [h hascii]
  cases op <;> decide

/-- Where a token is a keyword in capitals, a token of the query in lower case spells it. -/
theorem exists_spells_of_isKeyword {query raw : Text}
    (hraw : raw ∈ queryTokens defaultPunctuation false query) (h : isKeyword raw = true) :
    ∃ token ∈ queryTokens defaultPunctuation true query, ∃ op : Operator, op.Spells token := by
  have hlowered := queryTokens_lowered query
  generalize queryTokens defaultPunctuation false query = raws at hraw hlowered
  generalize queryTokens defaultPunctuation true query = tokens at hlowered ⊢
  induction hlowered with
  | nil => exact absurd hraw List.not_mem_nil
  | cons htoken _ ih =>
    obtain rfl | hraw := List.mem_cons.mp hraw
    · exact ⟨_, List.mem_cons_self, htoken.spells h⟩
    · obtain ⟨token, hmem, hspells⟩ := ih hraw
      exact ⟨token, List.mem_cons_of_mem _ hmem, hspells⟩

end Lowered

section Parentheses

/-- How many parentheses are open behind a text, where `n` are open before it, if none is closed
that is not open. -/
def openAfter (n : Nat) : Text → Option Nat
  | [] => some n
  | c :: rest =>
    if c = '(' then openAfter (n + 1) rest
    else if c = ')' then if n = 0 then none else openAfter (n - 1) rest
    else openAfter n rest

/-- The parentheses of a text are balanced. -/
def Balanced (t : Text) : Prop := openAfter 0 t = some 0

instance (t : Text) : Decidable (Balanced t) := inferInstanceAs (Decidable (openAfter 0 t = some 0))

/-- How many levels are open behind some symbols, where `n` are open before them, if none is closed
that is not open. -/
def levelsAfter (n : Nat) : List Symbol → Option Nat
  | [] => some n
  | .opening :: rest => levelsAfter (n + 1) rest
  | .closing :: rest => if n = 0 then none else levelsAfter (n - 1) rest
  | _ :: rest => levelsAfter n rest

theorem openAfter_append_of_not_parenthesis {s : Text} (h : ∀ c ∈ s, isParenthesis c = false)
    (n : Nat) (t : Text) : openAfter n (s ++ t) = openAfter n t := by
  induction s with
  | nil => rfl
  | cons c rest ih =>
    obtain ⟨hc, hrest⟩ := List.forall_mem_cons.mp h
    simp only [isParenthesis, Bool.or_eq_false_iff, decide_eq_false_iff_not] at hc
    rw [List.cons_append, openAfter, if_neg hc.1, if_neg hc.2, ih hrest]

/-- Lower case keeps parentheses and brings no others. -/
theorem openAfter_lowerFrom (n : Nat) (before t : Text) :
    openAfter n (lowerFrom before t) = openAfter n t := by
  induction t generalizing n before with
  | nil => rfl
  | cons c rest ih =>
    rw [lowerFrom]
    cases hc : isParenthesis c with
    | true =>
      have houtside := isOutside_of_isSeparator (isSeparator_of_isParenthesis hc)
      rw [lowerBetween_of_isOutside houtside, List.singleton_append, openAfter, openAfter]
      simp only [ih]
    | false =>
      have hlowered := not_isParenthesis_lowerBetween hc before rest
      rw [openAfter_append_of_not_parenthesis hlowered, ih]
      exact (openAfter_append_of_not_parenthesis (s := [c]) (by simpa using hc) n rest).symm

theorem levelsAfter_finished {current : Text} (h : ∀ c ∈ current, isParenthesis c = false) (n : Nat)
    (rest : List Symbol) :
    levelsAfter n ((finished current).map Symbol.ofToken ++ rest) = levelsAfter n rest := by
  unfold finished
  split
  · rfl
  · have hopening : current ≠ [.char '('] := ne_singleton_of_isParenthesis h rfl
    have hclosing : current ≠ [.char ')'] := ne_singleton_of_isParenthesis h rfl
    rw [List.map_singleton, List.singleton_append, Symbol.ofToken, if_neg hopening, if_neg hclosing]
    split <;> rfl

/-- The tokens of a text open and close the levels that its parentheses open and close. -/
theorem levelsAfter_tokensFrom (punctuation : Text) {current : Text}
    (h : ∀ c ∈ current, isParenthesis c = false) (n : Nat) (t : Text) :
    levelsAfter n ((tokensFrom punctuation current t).map Symbol.ofToken) = openAfter n t := by
  have hnil : ∀ c ∈ ([] : Text), isParenthesis c = false := fun c hc => absurd hc List.not_mem_nil
  induction t generalizing n current with
  | nil =>
    have hfinished := levelsAfter_finished h n []
    rwa [List.append_nil] at hfinished
  | cons c rest ih =>
    rw [tokensFrom, openAfter]
    split
    · next hc =>
      rw [List.map_append, levelsAfter_finished h, List.map_cons]
      simp only [isParenthesis, Bool.or_eq_true, decide_eq_true_eq] at hc
      obtain rfl | rfl := hc
      · exact ih hnil (n + 1)
      · show (if n = 0 then none else levelsAfter (n - 1) _) = if n = 0 then none else _
        rw [ih hnil]
    · next hc =>
      have hother := hc
      simp only [isParenthesis, Bool.or_eq_true, decide_eq_true_eq, not_or] at hother
      rw [if_neg hother.1, if_neg hother.2]
      split
      · rw [List.map_append, levelsAfter_finished h, ih hnil]
      · split
        · exact ih h n
        · refine ih (fun d hd => ?_) n
          obtain hd | hd := List.mem_append.mp hd
          · exact h d hd
          · rw [List.mem_singleton.mp hd]
            exact Bool.eq_false_iff.mpr hc

theorem levelsAfter_queryTokens (punctuation query : Text) :
    levelsAfter 0 ((queryTokens punctuation true query).map Symbol.ofToken) =
      openAfter 0 query := by
  rw [queryTokens_eq, levelsAfter_tokensFrom _ fun c hc => absurd hc List.not_mem_nil]
  exact openAfter_lowerFrom 0 [] query

end Parentheses

end Concordance
