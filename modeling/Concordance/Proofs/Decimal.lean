import Concordance.Json.Display
import Concordance.Json.Integer
import Concordance.Proofs.CodePoints
import Mathlib.Algebra.Ring.Nat

/-!
# Decimal texts of integers

An integer is written in its own way, and reads back as itself unless it has more
digits than a number in a text may have. No integer has so many that was read itself
or is the integer part of a double.
-/
namespace Concordance

theorem isDigit_of_mem_digitsIn {n : Nat} {c : CodePoint} (h : c ∈ digitsIn 10 n) :
    c.isDigit = true := by
  obtain ⟨d, hd, rfl⟩ := List.mem_map.mp h
  exact Nat.isDigit_of_mem_toDigits (by decide) (by decide) hd

theorem digitsIn_ne_nil (n : Nat) : digitsIn 10 n ≠ [] := by
  simp [digitsIn, Nat.toDigits_ne_nil]

/-- The digits of a number have the number as their value. -/
theorem ofDigits_digitsIn (n : Nat) : ofDigits ((digitsIn 10 n).map (·.toNat - 48)) = n := by
  rw [ofDigits, digitsIn, List.map_map, List.foldl_map]
  exact Nat.ofDigitChars_ten_toDigits

theorem decimal_injective {m n : Int} (h : decimal m = decimal n) : m = n := by
  have hsign (k l : Nat) : digitsIn 10 k ≠ .char '-' :: digitsIn 10 l := by
    intro hk
    have hmem : .char '-' ∈ digitsIn 10 k := by
      rw [hk]
      exact List.mem_cons_self
    have hdigit := isDigit_of_mem_digitsIn hmem
    contradiction
  have hdigits {k l : Nat} (hk : digitsIn 10 k = digitsIn 10 l) : k = l := by
    rw [← ofDigits_digitsIn k, hk, ofDigits_digitsIn]
  cases m with
  | ofNat k =>
    cases n with
    | ofNat l => rw [hdigits h]
    | negSucc l => exact absurd h (hsign k (l + 1))
  | negSucc k =>
    cases n with
    | ofNat l => exact absurd h.symm (hsign l (k + 1))
    | negSucc l =>
      have hsucc := hdigits (List.cons.inj h).2
      have hkl : k = l := by omega
      rw [hkl]

theorem digitValue?_of_isDigit {c : CodePoint} (h : c.isDigit = true) :
    digitValue? c = some (c.toNat - 48) := by
  have hc : 48 ≤ c.toNat ∧ c.toNat ≤ 57 := CodePoint.isDigit_iff_toNat.mp h
  rw [digitValue?, digitZeros, List.find?_cons_of_pos (by simp; omega)]
  rfl

theorem surroundsInteger_of_isDigit {c : CodePoint} (h : c.isDigit = true) :
    surroundsInteger c = false := by
  have hc : 48 ≤ c.toNat ∧ c.toNat ≤ 57 := CodePoint.isDigit_iff_toNat.mp h
  simp [surroundsInteger, isBlank, inRanges, blankRanges]
  omega

theorem digitsOf_of_isDigit {t : Text} (hne : t ≠ []) (h : ∀ c ∈ t, c.isDigit = true) :
    digitsOf t = some (t.map (·.toNat - 48)) := by
  induction t with
  | nil => contradiction
  | cons c rest ih =>
    have hc := digitValue?_of_isDigit (h c List.mem_cons_self)
    cases rest with
    | nil => simp [digitsOf, hc]
    | cons d rest =>
      have hd : d ≠ '_' := by
        rintro rfl
        have hdigit := h '_' (by simp)
        contradiction
      have hrest := ih (by simp) fun e he => h e (List.mem_cons_of_mem c he)
      rw [digitsOf, hc, hrest]
      · rfl
      · simp
      · intro rest' hcons
        exact hd (List.cons.inj hcons).1

theorem trimBy_eq_self {p : CodePoint → Bool} {t : Text} (h : ∀ c ∈ t, p c = false) :
    trimBy p t = t := by
  have hdrop {l : Text} (hl : ∀ c ∈ l, p c = false) : l.dropWhile p = l := by
    cases l with
    | nil => rfl
    | cons c rest => rw [List.dropWhile_cons, hl c List.mem_cons_self]; rfl
  rw [trimBy, hdrop h, hdrop (by simpa using h), List.reverse_reverse]

/-- The digits of a number read back, if there are not too many. -/
theorem readNatural_digitsIn (n : Nat) :
    readNatural (digitsIn 10 n) =
      if (digitsIn 10 n).length ≤ maxDigits then some n else none := by
  have hdigits := digitsOf_of_isDigit (digitsIn_ne_nil n) fun c hc => isDigit_of_mem_digitsIn hc
  rw [readNatural, hdigits, Option.bind_eq_bind, Option.bind_some, List.length_map,
    ofDigits_digitsIn]

/-- An integer reads back as itself, if it has not too many digits. -/
theorem readInteger_decimal (n : Int) :
    readInteger (decimal n) =
      if isWritable n then some n else none := by
  have hsurrounds {k : Nat} : ∀ c ∈ digitsIn 10 k, surroundsInteger c = false :=
    fun c hc => surroundsInteger_of_isDigit (isDigit_of_mem_digitsIn hc)
  cases n with
  | ofNat k =>
    have htrim : trimBy surroundsInteger (decimal (.ofNat k)) = digitsIn 10 k :=
      trimBy_eq_self hsurrounds
    rw [readInteger, htrim, isWritable]
    simp only [decide_eq_true_eq]
    split
    · next rest heq =>
      have hdigit := isDigit_of_mem_digitsIn (n := k) (c := '-') (by simp [heq])
      contradiction
    · next rest heq =>
      have hdigit := isDigit_of_mem_digitsIn (n := k) (c := '+') (by simp [heq])
      contradiction
    · rw [readNatural_digitsIn]
      show _ = if (digitsIn 10 k).length ≤ maxDigits then some (Int.ofNat k) else none
      split <;> rfl
  | negSucc k =>
    have hminus : ∀ c ∈ .char '-' :: digitsIn 10 (k + 1), surroundsInteger c = false := by
      intro c hc
      obtain rfl | hc := List.mem_cons.mp hc
      · rfl
      · exact hsurrounds c hc
    have htrim :
        trimBy surroundsInteger (decimal (.negSucc k)) = .char '-' :: digitsIn 10 (k + 1) :=
      trimBy_eq_self hminus
    rw [readInteger, htrim]
    rw [isWritable]
    simp only [decide_eq_true_eq]
    show (readNatural (digitsIn 10 (k + 1))).map (fun n => -(n : Int)) =
      if (digitsIn 10 (k + 1)).length ≤ maxDigits then some (Int.negSucc k) else none
    rw [readNatural_digitsIn]
    split <;> rfl

theorem digitValue?_lt {c : CodePoint} {d : Nat} (h : digitValue? c = some d) : d < 10 := by
  rw [digitValue?, Option.map_eq_some_iff] at h
  obtain ⟨first, hfirst, rfl⟩ := h
  have hrow := List.find?_some hfirst
  simp only [Bool.and_eq_true, decide_eq_true_eq] at hrow
  omega

theorem digitsOf_lt {t : Text} {digits : List Nat} (h : digitsOf t = some digits) :
    ∀ d ∈ digits, d < 10 := by
  -- A digit is followed by nothing, by an underscore, or by more digits at once.
  have hcons {c : CodePoint} {rest : Text} {digits : List Nat}
      (ih : ∀ {ds}, digitsOf rest = some ds → ∀ d ∈ ds, d < 10)
      (h : (do return (← digitValue? c) :: (← digitsOf rest)) = some digits) :
      ∀ d ∈ digits, d < 10 := by
    simp only [Option.bind_eq_bind, Option.bind_eq_some_iff] at h
    obtain ⟨d, hd, ds, hds, h⟩ := h
    cases h
    exact List.forall_mem_cons.mpr ⟨digitValue?_lt hd, ih hds⟩
  induction t using digitsOf.induct generalizing digits with
  | case1 => cases h
  | case2 c =>
    rw [digitsOf, Option.map_eq_some_iff] at h
    obtain ⟨d, hd, rfl⟩ := h
    simpa using digitValue?_lt hd
  | case3 c rest ih =>
    rw [digitsOf] at h
    exact hcons ih h
  | case4 c rest hne hunderscore ih =>
    rw [digitsOf] at h
    · exact hcons ih h
    · exact hne
    · exact hunderscore

theorem ofDigits_lt {digits : List Nat} (h : ∀ d ∈ digits, d < 10) :
    ofDigits digits < 10 ^ digits.length := by
  have hfrom (n k : Nat) (hn : n < 10 ^ k) :
      digits.foldl (fun n d => 10 * n + d) n < 10 ^ (k + digits.length) := by
    induction digits generalizing n k with
    | nil => exact hn
    | cons d rest ih =>
      obtain ⟨hd, hrest⟩ := List.forall_mem_cons.mp h
      have hstep : 10 * n + d < 10 ^ (k + 1) := by
        rw [Nat.pow_succ]
        omega
      have heq : k + (d :: rest).length = k + 1 + rest.length := by
        rw [List.length_cons]
        omega
      rw [List.foldl_cons, heq]
      exact ih hrest _ _ hstep
  have hzero := hfrom 0 0 (by decide)
  rwa [Nat.zero_add] at hzero

theorem readNatural_lt {t : Text} {n : Nat} (h : readNatural t = some n) : n < 10 ^ maxDigits := by
  simp only [readNatural, Option.bind_eq_bind, Option.bind_eq_some_iff] at h
  obtain ⟨digits, hdigits, h⟩ := h
  split at h
  · next hle =>
    cases h
    exact Nat.lt_of_lt_of_le (ofDigits_lt (digitsOf_lt hdigits))
      (Nat.pow_le_pow_right (by decide) hle)
  · cases h

/-- An integer that is read has not too many digits. -/
theorem natAbs_lt_of_readInteger {t : Text} {n : Int} (h : readInteger t = some n) :
    n.natAbs < 10 ^ maxDigits := by
  have hnatural {rest : Text} {k : Int} (hk : (do return ((← readNatural rest) : Int)) = some k) :
      k.natAbs < 10 ^ maxDigits := by
    simp only [Option.bind_eq_bind, Option.bind_eq_some_iff] at hk
    obtain ⟨m, hm, hk⟩ := hk
    cases hk
    exact readNatural_lt hm
  unfold readInteger at h
  split at h
  · obtain ⟨k, hk, rfl⟩ := Option.map_eq_some_iff.mp h
    rw [Int.natAbs_neg]
    exact hnatural hk
  · obtain ⟨k, hk, rfl⟩ := Option.map_eq_some_iff.mp h
    exact hnatural hk
  · obtain ⟨k, hk, rfl⟩ := Option.map_eq_some_iff.mp h
    exact hnatural hk

theorem isWritable_iff {n : Int} : isWritable n = true ↔ n.natAbs < 10 ^ maxDigits := by
  rw [isWritable, decide_eq_true_iff, digitsIn, List.length_map]
  exact Nat.length_toDigits_le_iff (by decide) (by decide)

namespace Dyadic

theorem ofFloat_le {x : Float} {d : Dyadic} (h : ofFloat x = some d) :
    d.mantissa < 2 ^ 53 ∧ d.exponent ≤ maxExponent := by
  unfold ofFloat at h
  simp only at h
  have hfraction : x.toBits.toNat % Nat.pow 2 52 < 2 ^ 52 := Nat.mod_lt _ (by decide)
  have hbiased : x.toBits.toNat / Nat.pow 2 52 % Nat.pow 2 11 < 2 ^ 11 := Nat.mod_lt _ (by decide)
  generalize x.toBits.toNat % Nat.pow 2 52 = fraction at h hfraction
  generalize x.toBits.toNat / Nat.pow 2 52 % Nat.pow 2 11 = biased at h hbiased
  split at h
  · cases h
  · next hfinite =>
    split at h
    · cases h
      exact ⟨by simp only; omega, Int.le_of_lt (by decide : minExponent < maxExponent)⟩
    · cases h
      simp only [maxExponent]
      have hpow : Nat.pow 2 52 = 2 ^ 52 := rfl
      omega

/-- The integer part of a double has not too many digits. -/
theorem natAbs_truncate_lt {x : Float} {d : Dyadic} (h : ofFloat x = some d) :
    d.truncate.natAbs < 10 ^ maxDigits := by
  obtain ⟨hmantissa, hexponent⟩ := ofFloat_le h
  rw [maxExponent] at hexponent
  have hmagnitude : d.truncate.natAbs ≤ d.mantissa * 2 ^ d.exponent.toNat := by
    have hdiv : d.mantissa / 2 ^ (-d.exponent).toNat ≤ d.mantissa * 2 ^ d.exponent.toNat :=
      Nat.le_trans (Nat.div_le_self _ _) (Nat.le_mul_of_pos_right _ (Nat.two_pow_pos _))
    have habs : d.truncate.natAbs =
        if 0 ≤ d.exponent then d.mantissa * 2 ^ d.exponent.toNat
        else d.mantissa / 2 ^ (-d.exponent).toNat := by
      rw [truncate]
      cases d.negative with
      | true => exact Int.natAbs_neg _
      | false => rfl
    rw [habs]
    split
    · exact Nat.le_refl _
    · exact hdiv
  have hdigits : 53 + d.exponent.toNat ≤ maxDigits := by
    rw [maxDigits]
    omega
  calc d.truncate.natAbs
      ≤ d.mantissa * 2 ^ d.exponent.toNat := hmagnitude
    _ < 2 ^ 53 * 2 ^ d.exponent.toNat :=
      Nat.mul_lt_mul_of_pos_right hmantissa (Nat.two_pow_pos _)
    _ = 2 ^ (53 + d.exponent.toNat) := (Nat.pow_add 2 53 _).symm
    _ ≤ 10 ^ (53 + d.exponent.toNat) := Nat.pow_le_pow_left (by decide) _
    _ ≤ 10 ^ maxDigits := Nat.pow_le_pow_right (by decide) hdigits

end Dyadic

/-- An integer can be written for which a value stands that can be shown. -/
theorem Json.isWritable_of_toInteger {id : Json} {doc : Int} (h : id.toInteger = .ok doc)
    (hid : id.isWritable = true) : Concordance.isWritable doc = true := by
  cases id with
  | int n =>
    cases h
    exact hid
  | bool b =>
    cases h
    cases b <;> rfl
  | float x =>
    simp only [Json.toInteger] at h
    split at h
    · next d hd =>
      cases h
      exact isWritable_iff.mpr (Dyadic.natAbs_truncate_lt hd)
    · cases h
  | str t =>
    simp only [Json.toInteger] at h
    split at h
    · next n hn =>
      cases h
      exact isWritable_iff.mpr (natAbs_lt_of_readInteger hn)
    · cases h
  | null => cases h
  | arr items => cases h
  | obj members => cases h

end Concordance
