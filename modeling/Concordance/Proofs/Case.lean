import Concordance.Analyzer
import Concordance.Proofs.CodePoints
import Concordance.Query.Token

/-!
# Lower case leaves the cuts of a query in place

Characters at which a query is cut have no case and end the search for the neighbours of
a letter, so the parts of a query are put in lower case one by one. Letters become
letters, and no character becomes one that does not belong to words.
-/
namespace Concordance

/-- A character at which a query is cut. -/
def isSeparator (c : CodePoint) : Bool := isParenthesis c || isBlank c

/-- A character that belongs to no word: a separator or a mark of punctuation. -/
def isOutside (c : CodePoint) : Bool := isSeparator c || c ∈ defaultPunctuation

section Ranges

/-- Two lists of ranges have no code point in common. -/
def areApart (ranges ranges' : List (Nat × Nat)) : Bool :=
  ranges.all fun r => ranges'.all fun r' => r.2 < r'.1 || r'.2 < r.1

theorem inRanges_iff {ranges : List (Nat × Nat)} {c : CodePoint} :
    inRanges ranges c = true ↔ ∃ r ∈ ranges, r.1 ≤ c.toNat ∧ c.toNat ≤ r.2 := by
  simp [inRanges]

theorem not_inRange_of_areApart {ranges ranges' : List (Nat × Nat)}
    (h : areApart ranges ranges' = true) {c : CodePoint} (hc : inRanges ranges c = true)
    {r' : Nat × Nat} (hr' : r' ∈ ranges') : c.toNat < r'.1 ∨ r'.2 < c.toNat := by
  obtain ⟨r, hr, hrange⟩ := inRanges_iff.mp hc
  simp only [areApart, List.all_eq_true, Bool.or_eq_true, decide_eq_true_eq] at h
  have hapart := h r hr r' hr'
  omega

theorem inRanges_of_areApart {ranges ranges' : List (Nat × Nat)}
    (h : areApart ranges ranges' = true) {c : CodePoint} (hc : inRanges ranges c = true) :
    inRanges ranges' c = false := by
  rw [Bool.eq_false_iff]
  intro hin
  obtain ⟨r', hr', hrange⟩ := inRanges_iff.mp hin
  have hapart := not_inRange_of_areApart h hc hr'
  omega

/-- The code points of the separators. -/
def separatorRanges : List (Nat × Nat) := (0x28, 0x29) :: blankRanges

/-- The code points of the characters that belong to no word. -/
def outsideRanges : List (Nat × Nat) :=
  [(0x2E, 0x2E), (0x2C, 0x2C), (0x21, 0x21), (0x3F, 0x3F)] ++ separatorRanges

theorem isSeparator_eq (c : CodePoint) : isSeparator c = inRanges separatorRanges c := by
  have hparenthesis : isParenthesis c = (decide (0x28 ≤ c.toNat) && decide (c.toNat ≤ 0x29)) := by
    have hopening : c = '(' ↔ c.toNat = 0x28 := CodePoint.toNat_inj.symm
    have hclosing : c = ')' ↔ c.toNat = 0x29 := CodePoint.toNat_inj.symm
    rw [Bool.eq_iff_iff]
    simp only [isParenthesis, Bool.or_eq_true, Bool.and_eq_true, decide_eq_true_eq, hopening,
      hclosing]
    omega
  rw [isSeparator, hparenthesis]
  rfl

theorem isOutside_eq (c : CodePoint) : isOutside c = inRanges outsideRanges c := by
  have hmark (k : CodePoint) : c = k ↔ k.toNat ≤ c.toNat ∧ c.toNat ≤ k.toNat := by
    rw [← CodePoint.toNat_inj]
    omega
  have hmarks : decide (c ∈ defaultPunctuation) =
      inRanges [(0x2E, 0x2E), (0x2C, 0x2C), (0x21, 0x21), (0x3F, 0x3F)] c := by
    rw [Bool.eq_iff_iff, decide_eq_true_eq, inRanges_iff]
    simp [defaultPunctuation, hmark, CodePoint.toNat_char]
  rw [isOutside, isSeparator_eq, hmarks, Bool.or_comm, outsideRanges, inRanges, inRanges, inRanges,
    List.any_append]

end Ranges

section Characters

/-- The range of code points from which a run of the table leads. -/
def CaseRun.range (run : CaseRun) : Nat × Nat := (run.first, run.last)

/-- The range of code points to which a run of the table leads. -/
def CaseRun.image (run : CaseRun) : Nat × Nat :=
  ((run.first + run.shift).toNat, (run.last + run.shift).toNat)

theorem CaseRun.range_of_covers {run : CaseRun} {n : Nat} (h : run.covers n = true) :
    run.first ≤ n ∧ n ≤ run.last := by
  simp only [covers, Bool.and_eq_true, decide_eq_true_eq] at h
  exact h.1

/-- The code points of the capitals of ASCII, in which keywords are spelled. -/
def capitalRanges : List (Nat × Nat) := [(0x41, 0x5A)]

/-- The tables of letter case beside the characters of no word, and where lower case leads: the
rows of each two tables are checked pair by pair. -/
theorem tables_apart :
    areApart outsideRanges (lowerRuns.map CaseRun.range) = true ∧
      areApart outsideRanges ((0, 0) :: lowerRuns.map CaseRun.image) = true ∧
      areApart capitalRanges ((0, 0) :: lowerRuns.map CaseRun.image) = true ∧
      areApart separatorRanges casedRanges = true ∧
      areApart separatorRanges caseIgnorableRanges = true := by
  decide +kernel

theorem inRanges_capitalRanges {c : CodePoint} :
    inRanges capitalRanges c = true ↔ 65 ≤ c.toNat ∧ c.toNat ≤ 90 := by
  simp [inRanges_iff, capitalRanges]

theorem lowerChar_of_ascii {c : CodePoint} (hascii : c.toNat < 128)
    (h : inRanges capitalRanges c = false) : lowerChar c = c := by
  rw [lowerChar, if_pos hascii]
  exact CodePoint.toLower_eq_self (mt inRanges_capitalRanges.mpr (Bool.eq_false_iff.mp h))

theorem lowerChar_of_isOutside {c : CodePoint} (h : isOutside c = true) : lowerChar c = c := by
  rw [isOutside_eq] at h
  by_cases hascii : c.toNat < 128
  · exact lowerChar_of_ascii hascii (inRanges_of_areApart (by decide) h)
  · rw [lowerChar, if_neg hascii]
    obtain ⟨hapart, -⟩ := tables_apart
    have hnone : lowerRuns.find? (·.covers c.toNat) = none := by
      refine List.find?_eq_none.mpr fun run hrun hcovers => ?_
      have hrange := not_inRange_of_areApart hapart h (List.mem_map_of_mem hrun)
      have hcovered := CaseRun.range_of_covers hcovers
      simp only [CaseRun.range] at hrange
      omega
    rw [hnone]

/-- Beyond ASCII no character becomes one of a class to which no run of the table leads. -/
theorem inRanges_lowerChar {ranges : List (Nat × Nat)}
    (hapart : areApart ranges ((0, 0) :: lowerRuns.map CaseRun.image) = true) {c : CodePoint}
    (hc : ¬c.toNat < 128) (h : inRanges ranges c = false) :
    inRanges ranges (lowerChar c) = false := by
  rw [lowerChar, if_neg hc]
  split
  · next run hfind =>
    have hcovered := CaseRun.range_of_covers
      (List.find?_some (p := fun run : CaseRun => run.covers c.toNat) hfind)
    have himage : run.image ∈ (0, 0) :: lowerRuns.map CaseRun.image :=
      List.mem_cons_of_mem _ (List.mem_map_of_mem (List.mem_of_find?_eq_some hfind))
    rw [Bool.eq_false_iff]
    intro hin
    have hzero := not_inRange_of_areApart hapart hin List.mem_cons_self
    have hlowered := not_inRange_of_areApart hapart hin himage
    obtain hn | hn := CodePoint.toNat_ofNat ((c.toNat + run.shift).toNat)
    · rw [hn] at hlowered
      simp only [CaseRun.image] at hlowered
      omega
    · rw [hn] at hzero
      omega
  · exact h

theorem isOutside_lowerChar {c : CodePoint} (h : isOutside c = false) :
    isOutside (lowerChar c) = false := by
  by_cases hascii : c.toNat < 128
  · rw [lowerChar, if_pos hascii]
    by_cases hcapital : 65 ≤ c.toNat ∧ c.toNat ≤ 90
    · -- A capital becomes a small letter.
      have hlowered : c.toLower.toNat = c.toNat + 32 := by
        rw [CodePoint.toNat_toLower, if_pos hcapital]
      have hsmall : inRanges [(0x61, 0x7A)] c.toLower = true :=
        inRanges_iff.mpr ⟨_, .head _, by omega, by omega⟩
      rw [isOutside_eq]
      exact inRanges_of_areApart (by decide) hsmall
    · rwa [CodePoint.toLower_eq_self hcapital]
  · obtain ⟨-, hapart, -⟩ := tables_apart
    rw [isOutside_eq] at h ⊢
    exact inRanges_lowerChar hapart hascii h

theorem not_capital_lowerChar (c : CodePoint) : inRanges capitalRanges (lowerChar c) = false := by
  by_cases hascii : c.toNat < 128
  · rw [lowerChar, if_pos hascii, Bool.eq_false_iff, Ne, inRanges_capitalRanges,
      CodePoint.toNat_toLower]
    split <;> omega
  · obtain ⟨-, -, hapart, -⟩ := tables_apart
    refine inRanges_lowerChar hapart hascii (Bool.eq_false_iff.mpr fun hin => ?_)
    obtain ⟨r, hr, hrange⟩ := inRanges_iff.mp hin
    rw [List.mem_singleton.mp hr] at hrange
    omega

theorem lowerBetween_of_isOutside {c : CodePoint} (h : isOutside c = true) (before after : Text) :
    lowerBetween before after c = [c] := by
  unfold lowerBetween
  split
  · next hc =>
    subst hc
    contradiction
  · split
    · next hc =>
      subst hc
      contradiction
    · rw [lowerChar_of_isOutside h]

theorem lowerBetween_ascii {c : CodePoint} (h : c.toNat < 128) (before after : Text) :
    lowerBetween before after c = [c.toLower] := by
  unfold lowerBetween
  split
  · next hc =>
    subst hc
    contradiction
  · split
    · next hc =>
      subst hc
      contradiction
    · rw [lowerChar, if_pos h]

/-- A character of a word has a lower-case form, and that belongs to the word. -/
theorem lowerBetween_of_not_isOutside {c : CodePoint} (h : isOutside c = false)
    (before after : Text) :
    lowerBetween before after c ≠ [] ∧
      ∀ c' ∈ lowerBetween before after c, isOutside c' = false := by
  unfold lowerBetween
  split
  · refine ⟨List.cons_ne_nil _ _, ?_⟩
    exact List.forall_mem_cons.mpr ⟨rfl, List.forall_mem_singleton.mpr rfl⟩
  · split
    · refine ⟨List.cons_ne_nil _ _, fun c' hc' => ?_⟩
      rw [List.mem_singleton.mp hc']
      split <;> rfl
    · refine ⟨List.cons_ne_nil _ _, fun c' hc' => ?_⟩
      rw [List.mem_singleton.mp hc']
      exact isOutside_lowerChar h

/-- No text in lower case has a capital with which keywords are spelled. -/
theorem not_capital_lowerBetween (before after : Text) (c : CodePoint) :
    ∀ c' ∈ lowerBetween before after c, inRanges capitalRanges c' = false := by
  unfold lowerBetween
  split
  · exact List.forall_mem_cons.mpr ⟨rfl, List.forall_mem_singleton.mpr rfl⟩
  · split
    · refine List.forall_mem_singleton.mpr ?_
      split <;> rfl
    · exact List.forall_mem_singleton.mpr (not_capital_lowerChar c)

theorem not_isParenthesis_lowerBetween {c : CodePoint} (h : isParenthesis c = false)
    (before after : Text) : ∀ c' ∈ lowerBetween before after c, isParenthesis c' = false := by
  intro c' hc'
  cases hc : isOutside c with
  | true =>
    rw [lowerBetween_of_isOutside hc, List.mem_singleton] at hc'
    rwa [hc']
  | false =>
    have hinside := (lowerBetween_of_not_isOutside hc before after).2 c' hc'
    simp only [isOutside, isSeparator, Bool.or_eq_false_iff] at hinside
    exact hinside.1.1

end Characters

section Texts

/-- A character of a text in lower case comes from one of the text. -/
theorem mem_lowerFrom {before t : Text} {c' : CodePoint} (h : c' ∈ lowerFrom before t) :
    ∃ c ∈ t, ∃ front back, c' ∈ lowerBetween front back c := by
  induction t generalizing before with
  | nil => exact absurd h List.not_mem_nil
  | cons c rest ih =>
    obtain h | h := List.mem_append.mp h
    · exact ⟨c, List.mem_cons_self, before, rest, h⟩
    · obtain ⟨d, hd, hfrom⟩ := ih h
      exact ⟨d, List.mem_cons_of_mem c hd, hfrom⟩

theorem not_capital_lower (t : Text) : ∀ c ∈ lower t, inRanges capitalRanges c = false := by
  intro c hc
  obtain ⟨d, -, front, back, hfrom⟩ := mem_lowerFrom hc
  exact not_capital_lowerBetween front back d c hfrom

theorem not_isParenthesis_lower {t : Text} (h : ∀ c ∈ t, isParenthesis c = false) :
    ∀ c ∈ lower t, isParenthesis c = false := by
  intro c hc
  obtain ⟨d, hd, front, back, hfrom⟩ := mem_lowerFrom hc
  exact not_isParenthesis_lowerBetween (h d hd) front back c hfrom

theorem isOutside_of_isSeparator {c : CodePoint} (h : isSeparator c = true) :
    isOutside c = true := by
  rw [isOutside, h, Bool.true_or]

/-- The three ways in which a character outside of words is read. -/
theorem isOutside_cases {c : CodePoint} (h : isOutside c = true) :
    isParenthesis c = true ∨ isBlank c = true ∨
      isParenthesis c = false ∧ isBlank c = false ∧ c ∈ defaultPunctuation := by
  cases hparenthesis : isParenthesis c with
  | true => exact .inl rfl
  | false =>
    cases hblank : isBlank c with
    | true => exact .inr (.inl rfl)
    | false =>
      have hmark : c ∈ defaultPunctuation := by
        simpa [isOutside, isSeparator, hparenthesis, hblank] using h
      exact .inr (.inr ⟨rfl, rfl, hmark⟩)

theorem isCased_of_isSeparator {c : CodePoint} (h : isSeparator c = true) : isCased c = false := by
  obtain ⟨-, -, -, hapart, -⟩ := tables_apart
  rw [isSeparator_eq] at h
  exact inRanges_of_areApart hapart h

theorem isCaseIgnorable_of_isSeparator {c : CodePoint} (h : isSeparator c = true) :
    isCaseIgnorable c = false := by
  obtain ⟨-, -, -, -, hapart⟩ := tables_apart
  rw [isSeparator_eq] at h
  exact inRanges_of_areApart hapart h

theorem meetsCased_cons (c : CodePoint) (t : Text) :
    meetsCased (c :: t) = if isCaseIgnorable c then meetsCased t else isCased c := by
  rw [meetsCased, List.dropWhile_cons]
  split <;> rfl

variable {c : CodePoint} (hc : isSeparator c = true)

include hc

/-- A separator ends the search for a letter with case. -/
theorem meetsCased_append (s t : Text) : meetsCased (s ++ c :: t) = meetsCased s := by
  induction s with
  | nil =>
    rw [List.nil_append, meetsCased_cons, isCaseIgnorable_of_isSeparator hc,
      isCased_of_isSeparator hc]
    rfl
  | cons d rest ih => rw [List.cons_append, meetsCased_cons, meetsCased_cons, ih]

theorem lowerBetween_append_after (before s t : Text) (d : CodePoint) :
    lowerBetween before (s ++ c :: t) d = lowerBetween before s d := by
  rw [lowerBetween, lowerBetween, meetsCased_append hc]

theorem lowerFrom_append_after (before s t : Text) :
    lowerFrom before (s ++ c :: t) =
      lowerFrom before s ++ lowerFrom (s.reverse ++ before) (c :: t) := by
  induction s generalizing before with
  | nil => rfl
  | cons d rest ih =>
    rw [List.cons_append, lowerFrom, lowerFrom, ih, lowerBetween_append_after hc, List.append_assoc,
      List.reverse_cons, List.append_assoc, List.singleton_append]

theorem lowerFrom_append_before (before front t : Text) :
    lowerFrom (before ++ c :: front) t = lowerFrom before t := by
  induction t generalizing before with
  | nil => rfl
  | cons d rest ih =>
    have hbetween : lowerBetween (before ++ c :: front) rest d = lowerBetween before rest d := by
      rw [lowerBetween, lowerBetween, meetsCased_append hc]
    rw [lowerFrom, lowerFrom, hbetween, ← List.cons_append, ih]

/-- The parts of a text before and behind a separator are put in lower case one by one. -/
theorem lower_append (s t : Text) : lower (s ++ c :: t) = lower s ++ c :: lower t := by
  rw [lower, lowerFrom_append_after hc, List.append_nil, lowerFrom,
    lowerBetween_of_isOutside (isOutside_of_isSeparator hc), List.singleton_append]
  have hfront := lowerFrom_append_before hc [] s.reverse t
  rw [List.nil_append] at hfront
  rw [hfront]
  rfl

theorem lower_cons (t : Text) : lower (c :: t) = c :: lower t := lower_append hc [] t

end Texts

end Concordance
