import Concordance.Text

/-!
# Code points by their numbers

A code point is known by its number, and code points are ordered as their numbers are. The texts
of strings are those without halves.
-/
namespace Concordance

namespace CodePoint

variable {c d : CodePoint}

@[simp] theorem toNat_char (c : Char) : (char c).toNat = c.toNat := rfl

theorem toNat_injective (h : c.toNat = d.toNat) : c = d := by
  cases c with
  | char c =>
    cases d with
    | char d => exact congrArg char (Char.toNat_inj.mp h)
    | half n =>
      have hc : c.toNat.isValidChar := c.valid
      have hn := n.isLt
      simp only [toNat, Nat.isValidChar] at h hc
      omega
  | half n =>
    cases d with
    | char d =>
      have hd : d.toNat.isValidChar := d.valid
      have hn := n.isLt
      simp only [toNat, Nat.isValidChar] at h hd
      omega
    | half m =>
      simp only [toNat] at h
      exact congrArg half (Fin.ext (by omega))

theorem toNat_inj : c.toNat = d.toNat ↔ c = d := ⟨toNat_injective, congrArg toNat⟩

theorem toNat_ofNat_of_lt {n : Nat} (h : n < 0x110000) : (ofNat n).toNat = n := by
  rw [ofNat]
  split
  · next hhalf =>
    simp only [toNat]
    omega
  · next hchar =>
    have hvalid : n.isValidChar := by
      simp only [Nat.isValidChar]
      omega
    rw [toNat_char, Char.ofNat, dif_pos hvalid]
    rfl

/-- A number beyond the last code point is that of none. -/
theorem toNat_ofNat (n : Nat) : (ofNat n).toNat = n ∨ (ofNat n).toNat = 0 := by
  by_cases h : n < 0x110000
  · exact .inl (toNat_ofNat_of_lt h)
  · have hhalf : ¬(0xD800 ≤ n ∧ n < 0xE000) := by omega
    have hvalid : ¬n.isValidChar := by
      simp only [Nat.isValidChar]
      omega
    rw [ofNat, dif_neg hhalf, toNat_char, Char.ofNat, dif_neg hvalid]
    exact .inr rfl

theorem toNat_lt (c : CodePoint) : c.toNat < 0x110000 := by
  cases c with
  | char c =>
    have hc : c.toNat.isValidChar := c.valid
    simp only [toNat, Nat.isValidChar] at hc ⊢
    omega
  | half n =>
    have hn := n.isLt
    simp only [toNat]
    omega

@[simp] theorem ofNat_toNat (c : CodePoint) : ofNat c.toNat = c :=
  toNat_injective (toNat_ofNat_of_lt c.toNat_lt)

theorem toNat_toLower (c : CodePoint) :
    c.toLower.toNat = if 65 ≤ c.toNat ∧ c.toNat ≤ 90 then c.toNat + 32 else c.toNat := by
  cases c with
  | char c =>
    show c.toLower.toNat = if 65 ≤ c.toNat ∧ c.toNat ≤ 90 then c.toNat + 32 else c.toNat
    have hiff : (c.val ≥ 'A'.val ∧ c.val ≤ 'Z'.val) ↔ 65 ≤ c.toNat ∧ c.toNat ≤ 90 := Iff.rfl
    unfold Char.toLower
    split
    · next h =>
      rw [if_pos (hiff.mp h)]
      have hval : c.val.toNat ≤ 90 := h.2
      show (c.val + ('a'.val - 'A'.val)).toNat = c.val.toNat + 32
      rw [UInt32.toNat_add]
      exact Nat.mod_eq_of_lt (by show c.val.toNat + 32 < 2 ^ 32; omega)
    · next h => rw [if_neg (mt hiff.mpr h)]
  | half n =>
    have hhalf : (half n).toNat = 0xD800 + n := rfl
    rw [if_neg (by omega)]
    rfl

/-- Only capitals have another form in lower case. -/
theorem toLower_eq_self (h : ¬(65 ≤ c.toNat ∧ c.toNat ≤ 90)) : c.toLower = c := by
  rw [← toNat_inj, toNat_toLower, if_neg h]

theorem isDigit_iff_toNat : c.isDigit = true ↔ 48 ≤ c.toNat ∧ c.toNat ≤ 57 := by
  cases c with
  | char c => exact Char.isDigit_iff_toNat
  | half n => simp [isDigit, toNat]; omega

instance : Std.IsLinearOrder CodePoint where
  le_refl c := Nat.le_refl c.toNat
  le_trans _ _ _ := Nat.le_trans
  le_antisymm _ _ h h' := toNat_injective (Nat.le_antisymm h h')
  le_total c d := Nat.le_total c.toNat d.toNat

instance : Std.LawfulOrderLT CodePoint where
  lt_iff c d := by
    show c.toNat < d.toNat ↔ c.toNat ≤ d.toNat ∧ ¬d.toNat ≤ c.toNat
    omega

end CodePoint

section Strings

theorem isHalf_of_mem_toText {s : String} {c : CodePoint} (h : c ∈ s.toText) :
    c.isHalf = false := by
  obtain ⟨c, -, rfl⟩ := List.mem_map.mp h
  rfl

/-- A text without halves is that of a string. -/
theorem toText_stringOf {t : Text} (h : ∀ c ∈ t, c.isHalf = false) : (stringOf t).toText = t := by
  rw [String.toText, stringOf, String.toList_ofList, List.map_map]
  conv => rhs; rw [← List.map_id t]
  refine List.map_congr_left fun c hc => ?_
  cases c with
  | char c => rfl
  | half n => cases h _ hc

theorem fromUTF8?_toUTF8 (s : String) : String.fromUTF8? s.toUTF8 = some s :=
  dif_pos s.isValidUTF8

theorem joinWith_cons_cons (separator part next : Text) (rest : List Text) :
    joinWith separator (part :: next :: rest) =
      part ++ (separator ++ joinWith separator (next :: rest)) :=
  List.append_assoc _ _ _

end Strings

end Concordance
