import Concordance.Path
import Concordance.Proofs.CodePoints
import Concordance.Text.Moment
import Concordance.Text.Surrogates

/-!
# Texts without pairs

A text in which no high half stands right before a low one stays as it is when pairs are
joined, and to join them leaves no pair. So a text is changed at most once. Numbers,
moments and the names in a path have no pairs.
-/
namespace Concordance

variable {c d : CodePoint} {t : Text}

theorem isHalf_of_isHighSurrogate (h : isHighSurrogate c.toNat = true) : c.isHalf = true := by
  cases c with
  | half n => rfl
  | char c =>
    have hvalid : c.toNat.isValidChar := c.valid
    rw [CodePoint.toNat_char] at h
    simp only [Nat.isValidChar, isHighSurrogate, Bool.and_eq_true, decide_eq_true_eq] at hvalid h
    omega

theorem isHalf_of_isLowSurrogate (h : isLowSurrogate c.toNat = true) : c.isHalf = true := by
  cases c with
  | half n => rfl
  | char c =>
    have hvalid : c.toNat.isValidChar := c.valid
    rw [CodePoint.toNat_char] at h
    simp only [Nat.isValidChar, isLowSurrogate, Bool.and_eq_true, decide_eq_true_eq] at hvalid h
    omega

/-- A character is in no pair. -/
theorem isPair_char_left (c : Char) (d : CodePoint) : isPair c d = false := by
  rw [isPair, Bool.and_eq_false_imp]
  intro h
  cases isHalf_of_isHighSurrogate h

theorem isPair_char_right (c : CodePoint) (d : Char) : isPair c d = false := by
  rw [isPair, Bool.and_eq_false_iff]
  refine .inr (Bool.eq_false_iff.mpr fun h => ?_)
  cases isHalf_of_isLowSurrogate h

theorem hasPair_cons (c : CodePoint) (t : Text) :
    hasPair (c :: t) = (t.head?.any (isPair c) || hasPair t) := by
  cases t <;> rfl

theorem paired_cons_of_isPair (h : isPair c d = true) :
    ∃ joined : Char, paired (c :: d :: t) = .char joined :: paired t :=
  ⟨characterOf c.toNat d.toNat, by rw [paired, if_pos h]⟩

theorem paired_cons_of_not_isPair (h : isPair c d = false) :
    paired (c :: d :: t) = c :: paired (d :: t) := by
  rw [paired, if_neg (by simp [h])]

theorem paired_of_hasPair_eq_false (h : hasPair t = false) : paired t = t := by
  induction t with
  | nil => rfl
  | cons c t ih =>
    cases t with
    | nil => rfl
    | cons d t =>
      rw [hasPair, Bool.or_eq_false_iff] at h
      rw [paired_cons_of_not_isPair h.1, ih h.2]

/-- The first code point of a text stays the first one, unless a character comes in its place. -/
theorem head?_paired (d : CodePoint) (t : Text) :
    (paired (d :: t)).head? = some d ∨ ∃ c : Char, (paired (d :: t)).head? = some (.char c) := by
  cases t with
  | nil => exact .inl rfl
  | cons e t =>
    rw [paired]
    split
    · exact .inr ⟨_, rfl⟩
    · exact .inl rfl

/-- The character of a pair has more than sixteen bits. -/
theorem le_toNat_characterOf (h : isPair c d = true) :
    0x10000 ≤ (characterOf c.toNat d.toNat).toNat := by
  rw [isPair, isHighSurrogate, isLowSurrogate] at h
  generalize c.toNat = high at h ⊢
  generalize d.toNat = low at h ⊢
  simp only [Bool.and_eq_true, decide_eq_true_eq] at h
  have hvalid : Nat.isValidChar (0x10000 + (high - 0xD800) * 0x400 + (low - 0xDC00)) :=
    .inr ⟨by omega, by omega⟩
  have hnat {n : Nat} (hn : n.isValidChar) : (Char.ofNat n).toNat = n := by
    rw [Char.ofNat, dif_pos hn]
    rfl
  rw [characterOf, hnat hvalid]
  omega

/-- Where all code points that are read have sixteen bits, no pair has been written. -/
theorem hasPair_eq_false_of_paired (h : ∀ c ∈ paired t, c.toNat < 0x10000) : hasPair t = false := by
  induction t using paired.induct with
  | case1 c d t hpair ih =>
    have hjoined := le_toNat_characterOf hpair
    rw [paired, if_pos hpair, List.forall_mem_cons, CodePoint.toNat_char] at h
    omega
  | case2 c d t hpair ih =>
    rw [paired, if_neg hpair, List.forall_mem_cons] at h
    rw [Bool.not_eq_true] at hpair
    rw [hasPair, hpair, ih h.2, Bool.or_false]
  | case3 t ht =>
    cases t with
    | nil => rfl
    | cons c t =>
      cases t with
      | nil => rfl
      | cons d t => exact absurd rfl (ht c d t)

@[simp] theorem hasPair_paired (t : Text) : hasPair (paired t) = false := by
  induction t using paired.induct with
  | case1 c d t hpair ih =>
    obtain ⟨joined, hjoined⟩ := paired_cons_of_isPair (t := t) hpair
    rw [hjoined, hasPair_cons, ih, Bool.or_false]
    cases (paired t).head? with
    | none => rfl
    | some e => exact isPair_char_left joined e
  | case2 c d t hpair ih =>
    rw [Bool.not_eq_true] at hpair
    rw [paired_cons_of_not_isPair hpair, hasPair_cons, ih, Bool.or_false]
    obtain hfirst | ⟨e, hfirst⟩ := head?_paired d t
    · rw [hfirst]
      exact hpair
    · rw [hfirst]
      exact isPair_char_right c e
  | case3 t ht =>
    cases t with
    | nil => rfl
    | cons c t =>
      cases t with
      | nil => rfl
      | cons d t => exact absurd rfl (ht c d t)

/-- A text without halves has no pair. -/
theorem hasPair_of_isHalf_eq_false (h : ∀ c ∈ t, c.isHalf = false) : hasPair t = false := by
  induction t with
  | nil => rfl
  | cons c t ih =>
    obtain ⟨hc, ht⟩ := List.forall_mem_cons.mp h
    rw [hasPair_cons, ih ht, Bool.or_false]
    cases c with
    | half n => cases hc
    | char c =>
      cases t.head? with
      | none => rfl
      | some d => exact isPair_char_left c d

@[simp] theorem hasPair_toText (s : String) : hasPair s.toText = false :=
  hasPair_of_isHalf_eq_false fun _ => isHalf_of_mem_toText

@[simp] theorem paired_toText (s : String) : paired s.toText = s.toText :=
  paired_of_hasPair_eq_false (hasPair_toText s)

theorem isHalf_of_mem_digitsIn {base n : Nat} (h : c ∈ digitsIn base n) : c.isHalf = false := by
  obtain ⟨d, -, rfl⟩ := List.mem_map.mp h
  rfl

theorem isHalf_of_mem_decimal {n : Int} (h : c ∈ decimal n) : c.isHalf = false := by
  cases n with
  | ofNat n => exact isHalf_of_mem_digitsIn h
  | negSucc n =>
    obtain rfl | h := List.mem_cons.mp h
    · rfl
    · exact isHalf_of_mem_digitsIn h

@[simp] theorem hasPair_decimal (n : Int) : hasPair (decimal n) = false :=
  hasPair_of_isHalf_eq_false fun _ => isHalf_of_mem_decimal

@[simp] theorem paired_decimal (n : Int) : paired (decimal n) = decimal n :=
  paired_of_hasPair_eq_false (hasPair_decimal n)

namespace Moment

/-- A text that has bytes has no halves. -/
theorem isHalf_of_bytesOf? {t bytes : Text} (h : bytesOf? t = some bytes) :
    ∀ c ∈ t, c.isHalf = false := by
  rw [bytesOf?, Option.bind_eq_bind, Option.bind_eq_some_iff] at h
  obtain ⟨parts, hparts, -⟩ := h
  intro c hc
  cases c with
  | char c => rfl
  | half n =>
    induction t generalizing parts with
    | nil => cases hc
    | cons d t ih =>
      rw [List.mapM_cons, Option.bind_eq_bind, Option.bind_eq_some_iff] at hparts
      obtain ⟨part, hpart, hparts⟩ := hparts
      rw [Option.bind_eq_bind, Option.bind_eq_some_iff] at hparts
      obtain ⟨rest, hrest, -⟩ := hparts
      obtain rfl | hc := List.mem_cons.mp hc
      · cases hpart
      · exact ih rest hrest hc

/-- In a text that may have one half, no two halves stand side by side. -/
theorem hasPair_of_set {t : Text} {i : Nat} {c : CodePoint}
    (h : ∀ d ∈ t.set i c, d.isHalf = false) : hasPair t = false := by
  induction t generalizing i with
  | nil => rfl
  | cons d t ih =>
    cases i with
    | zero =>
      rw [List.set_cons_zero, List.forall_mem_cons] at h
      rw [hasPair_cons, hasPair_of_isHalf_eq_false h.2, Bool.or_false]
      cases t with
      | nil => rfl
      | cons e t =>
        have he := h.2 e (.head _)
        cases e with
        | half n => cases he
        | char e => exact isPair_char_right d e
    | succ i =>
      rw [List.set_cons_succ, List.forall_mem_cons] at h
      rw [hasPair_cons, ih h.2, Bool.or_false]
      cases d with
      | half n => cases h.1
      | char d =>
        cases t with
        | nil => rfl
        | cons e t => exact isPair_char_left d e

/-- A moment has at most one half, and so no pair. -/
theorem hasPair_of_isMoment {t : Text} (h : isMoment t = true) : hasPair t = false := by
  rw [isMoment] at h
  cases hbytes : bytesOf? (separated t) with
  | none =>
    rw [hbytes] at h
    cases h
  | some bytes =>
    have hhalf := isHalf_of_bytesOf? hbytes
    rw [separated] at hhalf
    split at hhalf
    · exact hasPair_of_set hhalf
    · exact hasPair_of_isHalf_eq_false hhalf

end Moment

namespace Path

theorem exists_part_of_mem {c : CodePoint} {t : Text} (hc : c ∈ t) (hne : c ≠ '/') :
    ∃ part ∈ between t, c ∈ part := by
  induction t with
  | nil => cases hc
  | cons d t ih =>
    rw [between]
    obtain rfl | hc := List.mem_cons.mp hc
    · rw [if_neg hne]
      split
      · exact ⟨_, .head _, .head _⟩
      · exact ⟨_, .head _, .head _⟩
    · obtain ⟨part, hpart, hmem⟩ := ih hc
      split
      · exact ⟨part, .tail _ hpart, hmem⟩
      · split
        · next hnone =>
          rw [hnone] at hpart
          cases hpart
        · next first others hparts =>
          rw [hparts] at hpart
          obtain rfl | hpart := List.mem_cons.mp hpart
          · exact ⟨_, .head _, .tail _ hmem⟩
          · exact ⟨part, .tail _ hpart, hmem⟩

/-- A name to which a path may lead has no halves, and so no pair. -/
theorem hasPair_of_not_isForbidden {folder : Path} {name : Text}
    (h : (folder.child name).isForbidden = false) : hasPair name = false := by
  refine hasPair_of_isHalf_eq_false fun c hc => Bool.eq_false_iff.mpr fun hhalf => ?_
  have hne : c ≠ '/' := by
    rintro rfl
    cases hhalf
  obtain ⟨part, hpart, hmem⟩ := exists_part_of_mem hc hne
  have hnamed : part ∈ (ofText name).names := by
    refine List.mem_filter.mpr ⟨hpart, ?_⟩
    have hnonempty : part ≠ [] := List.ne_nil_of_mem hmem
    have hpoint : part ≠ [.char '.'] := by
      rintro rfl
      rw [List.mem_singleton.mp hmem] at hhalf
      cases hhalf
    simp [hnonempty, hpoint]
  have hchild : part ∈ (folder.child name).names := by
    rw [child, join]
    split
    · exact hnamed
    · exact List.mem_append_right _ hnamed
  have hrefused : (folder.child name).isForbidden = true :=
    List.any_eq_true.mpr ⟨part, hchild, List.any_eq_true.mpr ⟨c, hmem, by simp [isRefused, hhalf]⟩⟩
  rw [h] at hrefused
  cases hrefused

end Path

end Concordance
