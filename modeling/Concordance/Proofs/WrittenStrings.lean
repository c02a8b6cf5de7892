import Concordance.Json.Writer
import Concordance.Proofs.ReadValues

/-!
# Strings that are written

Of the text of a string the string is read as it is restored. Half of a pair is written as the
escape of its number, and so is each half of a character of more than sixteen bits, so that two
halves side by side come back as one character.
-/
namespace Concordance.Json

variable {t rest : Text}

section Strings

theorem hexValue?_digitChar : ∀ d < 16, hexValue? (.char (Nat.digitChar d)) = some d := by
  decide

/-- The last of several digits is that of the remainder. -/
theorem hexDigits_succ {width : Nat} (hwidth : 0 < width) (n : Nat) :
    hexDigits (width + 1) n = hexDigits width (n / 16) ++ [.char (Nat.digitChar (n % 16))] := by
  by_cases hn : n < 16
  · have hnone : digitsIn 16 0 = [.char '0'] := rfl
    have hone : digitsIn 16 n = [.char (Nat.digitChar n)] := by
      rw [digitsIn, Nat.toDigits_of_lt_base hn, List.map_singleton]
    rw [Nat.div_eq_of_lt hn, Nat.mod_eq_of_lt hn, hexDigits, hexDigits, hone, hnone]
    simp only [List.length_singleton]
    rw [← List.replicate_succ', Nat.sub_add_cancel hwidth, Nat.add_sub_cancel]
  · simp only [hexDigits, digitsIn]
    rw [Nat.toDigits_of_base_le (by decide) (by omega), List.map_append, List.length_append,
      ← List.append_assoc]
    simp

/-- A number of sixteen bits is read of its four digits. -/
theorem hexNumber?_hexDigits {n : Nat} (hn : n < 0x10000) :
    ∃ a b c d, hexDigits 4 n = [a, b, c, d] ∧ hexNumber? a b c d = some n := by
  have hone {m : Nat} (hm : m < 16) : hexDigits 1 m = [.char (Nat.digitChar m)] := by
    rw [hexDigits, digitsIn, Nat.toDigits_of_lt_base hm]
    rfl
  have hdigits : hexDigits 4 n = [.char (Nat.digitChar (n / 16 / 16 / 16)),
      .char (Nat.digitChar (n / 16 / 16 % 16)), .char (Nat.digitChar (n / 16 % 16)),
      .char (Nat.digitChar (n % 16))] := by
    rw [hexDigits_succ (by decide), hexDigits_succ (by decide), hexDigits_succ (by decide),
      hone (by omega)]
    rfl
  refine ⟨_, _, _, _, hdigits, ?_⟩
  have hmod (k : Nat) := hexValue?_digitChar (k % 16) (Nat.mod_lt k (by decide))
  rw [hexNumber?, hexValue?_digitChar _ (by omega : n / 16 / 16 / 16 < 16), hmod, hmod, hmod]
  show some _ = some n
  rw [Option.some.injEq]
  omega

/-- How a code point stands in a string: as itself, behind a backslash, or as the escape of its
number or of two halves. -/
theorem stringChar_cases (c : CodePoint) :
    (stringChar c = [c] ∧ (0x20 ≤ c.toNat ∧ c.toNat ≤ 0x7E) ∧ c ≠ '"' ∧ c ≠ '\\') ∨
    (∃ e : CodePoint, stringChar c = [.char '\\', e] ∧ simpleEscape? e = some c ∧ e ≠ 'u') ∨
    (stringChar c = unitEscape c.toNat ∧ c.toNat < 0x10000) ∨
    ∃ high low, stringChar c = unitEscape high ++ unitEscape low ∧
      isHighSurrogate high = true ∧ isLowSurrogate low = true ∧
      .char (characterOf high low) = c := by
  generalize hwritten : stringChar c = written
  unfold stringChar at hwritten
  split at hwritten
  · next h =>
    rw [Bool.or_eq_true, decide_eq_true_iff, decide_eq_true_iff] at h
    obtain rfl | rfl := h
    · exact .inr (.inl ⟨'"', hwritten.symm, rfl, by decide⟩)
    · exact .inr (.inl ⟨'\\', hwritten.symm, rfl, by decide⟩)
  next hquoted =>
  split at hwritten
  · next h => exact .inr (.inl ⟨'n', hwritten.symm, congrArg some h.symm, by decide⟩)
  split at hwritten
  · next h => exact .inr (.inl ⟨'r', hwritten.symm, congrArg some h.symm, by decide⟩)
  split at hwritten
  · next h => exact .inr (.inl ⟨'t', hwritten.symm, congrArg some h.symm, by decide⟩)
  split at hwritten
  · next h => exact .inr (.inl ⟨'b', hwritten.symm, congrArg some h.symm, by decide⟩)
  split at hwritten
  · next h => exact .inr (.inl ⟨'f', hwritten.symm, congrArg some h.symm, by decide⟩)
  split at hwritten
  · next h =>
    simp only [Bool.or_eq_true, decide_eq_true_iff, not_or] at hquoted
    rw [Bool.and_eq_true, decide_eq_true_iff, decide_eq_true_iff] at h
    exact .inl ⟨hwritten.symm, h, hquoted.1, hquoted.2⟩
  split at hwritten
  · next h => exact .inr (.inr (.inl ⟨hwritten.symm, h⟩))
  · next h =>
    have hlt := c.toNat_lt
    refine .inr (.inr (.inr ⟨_, _, hwritten.symm, ?_, ?_, ?_⟩))
    · simp only [isHighSurrogate, Bool.and_eq_true, decide_eq_true_iff]
      omega
    · simp only [isLowSurrogate, Bool.and_eq_true, decide_eq_true_iff]
      omega
    · have hsum : 0x10000 + (0xD800 + (c.toNat - 0x10000) / 0x400 - 0xD800) * 0x400 +
          (0xDC00 + (c.toNat - 0x10000) % 0x400 - 0xDC00) = c.toNat := by omega
      rw [characterOf, hsum]
      cases c with
      | char c => exact congrArg CodePoint.char (Char.ofNat_toNat c)
      | half n =>
        have hn := n.isLt
        simp only [CodePoint.toNat] at h
        omega

theorem readString_escape {n : Nat} (hn : n < 0x10000)
    (h : ∀ after : Text, rest ≠ .char '\\' :: .char 'u' :: after) :
    readString (unitEscape n ++ rest) = (readString rest).map fun r => (.ofNat n :: r.1, r.2) := by
  obtain ⟨a, b, c, d, hdigits, hnumber⟩ := hexNumber?_hexDigits hn
  rw [unitEscape, hdigits]
  show readString ('\\' :: 'u' :: a :: b :: c :: d :: rest) = _
  rw [readString]
  · rw [hnumber]
    cases readString rest <;> rfl
  · exact fun e f g i after heq => h _ heq

/-- Two escapes side by side are read as one character if they are a pair, and else one by one. -/
theorem readString_escapes {m n : Nat} (hm : m < 0x10000) (hn : n < 0x10000) :
    readString (unitEscape m ++ (unitEscape n ++ rest)) =
      if isHighSurrogate m && isLowSurrogate n then
        (readString rest).map fun r => (.char (characterOf m n) :: r.1, r.2)
      else (readString (unitEscape n ++ rest)).map fun r => (.ofNat m :: r.1, r.2) := by
  obtain ⟨a, b, c, d, hdigits, hnumber⟩ := hexNumber?_hexDigits hm
  obtain ⟨e, f, g, i, hdigits', hnumber'⟩ := hexNumber?_hexDigits hn
  rw [unitEscape, hdigits, unitEscape, hdigits']
  show readString ('\\' :: 'u' :: a :: b :: c :: d :: '\\' :: 'u' :: e :: f :: g :: i :: rest) = _
  rw [readString, hnumber, hnumber']
  simp only [Option.bind_eq_bind, Option.bind_some]
  split
  · cases readString rest <;> rfl
  · show _ = (readString ('\\' :: 'u' :: e :: f :: g :: i :: rest)).map _
    cases readString ('\\' :: 'u' :: e :: f :: g :: i :: rest) <;> rfl

/-- What stands behind a code point is not the escape of the other half of a pair. -/
def Parted (c : CodePoint) (rest : Text) : Prop :=
  (∀ after : Text, rest ≠ .char '\\' :: .char 'u' :: after) ∨
    ∃ n after, n < 0x10000 ∧ rest = unitEscape n ++ after ∧
      (isHighSurrogate c.toNat && isLowSurrogate n) = false

theorem parted_quote (c : CodePoint) (rest : Text) : Parted c ('"' :: rest) :=
  .inl fun _ h => nomatch (List.cons.inj h).1

theorem isLowSurrogate_of_isHighSurrogate {n : Nat} (h : isHighSurrogate n = true) :
    isLowSurrogate n = false := by
  simp only [isHighSurrogate, isLowSurrogate, Bool.and_eq_true, decide_eq_true_iff,
    Bool.and_eq_false_iff, decide_eq_false_iff_not] at h ⊢
  omega

theorem lt_of_isHighSurrogate {n : Nat} (h : isHighSurrogate n = true) : n < 0x10000 := by
  simp only [isHighSurrogate, Bool.and_eq_true, decide_eq_true_iff] at h
  omega

theorem lt_of_isLowSurrogate {n : Nat} (h : isLowSurrogate n = true) : n < 0x10000 := by
  simp only [isLowSurrogate, Bool.and_eq_true, decide_eq_true_iff] at h
  omega

theorem parted_stringChar {c d : CodePoint} (h : isPair c d = false) (rest : Text) :
    Parted c (stringChar d ++ rest) := by
  obtain ⟨hd, -, -, hne⟩ | ⟨e, hd, -, hne⟩ | ⟨hd, hlt⟩ | ⟨high, low, hd, hhigh, -, -⟩ :=
    stringChar_cases d
  · rw [hd]
    exact .inl fun _ heq => hne (List.cons.inj heq).1
  · rw [hd]
    exact .inl fun _ heq => hne (List.cons.inj (List.cons.inj heq).2).1
  · rw [hd]
    exact .inr ⟨_, rest, hlt, rfl, h⟩
  · rw [hd, List.append_assoc]
    refine .inr ⟨high, _, lt_of_isHighSurrogate hhigh, rfl, ?_⟩
    rw [isLowSurrogate_of_isHighSurrogate hhigh, Bool.and_false]

/-- A code point is read of what stands for it in a string. -/
theorem readString_stringChar {c : CodePoint} (h : Parted c rest) :
    readString (stringChar c ++ rest) = (readString rest).map fun r => (c :: r.1, r.2) := by
  obtain ⟨hc, hvisible, hquote, hslash⟩ | ⟨e, hc, hescape, hne⟩ | ⟨hc, hlt⟩ |
    ⟨high, low, hc, hhigh, hlow, rfl⟩ := stringChar_cases c
  · have htaken : ¬(decide (c.toNat < 0x20) || decide (c = '\\')) = true := by
      simp only [Bool.or_eq_true, decide_eq_true_iff, not_or]
      exact ⟨by omega, hslash⟩
    rw [hc, List.singleton_append, readString, if_neg htaken]
    · cases readString rest <;> rfl
    · exact hquote
    all_goals
      intros
      contradiction
  · rw [hc]
    show readString ('\\' :: e :: rest) = _
    rw [readString, hescape]
    · cases readString rest <;> rfl
    all_goals
      intros
      contradiction
  · obtain hrest | ⟨n, after, hn, rfl, hsingle⟩ := h
    · rw [hc, readString_escape hlt hrest, CodePoint.ofNat_toNat]
    · rw [hc, readString_escapes hlt hn, if_neg (by simp [hsingle]), CodePoint.ofNat_toNat]
  · have hpair : (isHighSurrogate high && isLowSurrogate low) = true := by rw [hhigh, hlow]; rfl
    rw [hc, List.append_assoc,
      readString_escapes (lt_of_isHighSurrogate hhigh) (lt_of_isLowSurrogate hlow), if_pos hpair]

/-- Half of a pair is written as the escape of its number. -/
theorem stringChar_of_isHalf {c : CodePoint} (h : c.isHalf = true) :
    stringChar c = unitEscape c.toNat := by
  cases c with
  | char c => cases h
  | half n =>
    have hnat : (CodePoint.half n).toNat = 0xD800 + n := rfl
    obtain ⟨-, hle, -⟩ | ⟨e, -, hescape, -⟩ | ⟨hescape, -⟩ | ⟨high, low, -, -, -, hchar⟩ :=
      stringChar_cases (.half n)
    · omega
    · cases isHalf_of_simpleEscape? hescape
    · exact hescape
    · cases hchar

/-- A string is read of its text as it is restored. -/
theorem readString_stringChars (t rest : Text) :
    readString (t.flatMap stringChar ++ .char '"' :: rest) = some (paired t, rest) := by
  induction t using paired.induct with
  | case1 c d t hpair ih =>
    have hhalves : (isHighSurrogate c.toNat && isLowSurrogate d.toNat) = true := hpair
    obtain ⟨hhigh, hlow⟩ := Bool.and_eq_true_iff.mp hhalves
    rw [List.flatMap_cons, List.flatMap_cons,
      stringChar_of_isHalf (isHalf_of_isHighSurrogate hhigh),
      stringChar_of_isHalf (isHalf_of_isLowSurrogate hlow), List.append_assoc, List.append_assoc,
      readString_escapes (lt_of_isHighSurrogate hhigh) (lt_of_isLowSurrogate hlow),
      if_pos hhalves, ih, paired, if_pos hpair]
    rfl
  | case2 c d t hpair ih =>
    rw [Bool.not_eq_true] at hpair
    have hparted : Parted c ((d :: t).flatMap stringChar ++ .char '"' :: rest) := by
      rw [List.flatMap_cons, List.append_assoc]
      exact parted_stringChar hpair _
    rw [List.flatMap_cons, List.append_assoc, readString_stringChar hparted, ih,
      paired_cons_of_not_isPair hpair]
    rfl
  | case3 t ht =>
    cases t with
    | nil => rfl
    | cons c t =>
      cases t with
      | nil =>
        rw [List.flatMap_singleton, readString_stringChar (parted_quote c rest)]
        rfl
      | cons d t => exact absurd rfl (ht c d t)

theorem renderString_append (t rest : Text) :
    renderString t ++ rest = .char '"' :: (t.flatMap stringChar ++ .char '"' :: rest) := by
  simp [renderString, String.toText]

end Strings

end Concordance.Json
