import Concordance.Proofs.ReadValues

/-!
# Numbers that are written

A number is read in front of what closes a value as it is read alone: nothing of that is taken
for a part of the number. An integer is read of its digits, unless they are too many.
-/
namespace Concordance.Json

variable {t rest : Text}

/-- What may stand behind a value. -/
def Closes (rest : Text) : Prop :=
  ∀ c ∈ rest.head?, c = ',' ∨ c = ']' ∨ c = '\x7d' ∨ c = '\n'

theorem Closes.isDigit (h : Closes rest) : ∀ c ∈ rest.head?, c.isDigit = false := by
  intro c hc
  obtain rfl | rfl | rfl | rfl := h c hc <;> rfl

section Numbers

theorem Closes.ne (h : Closes rest) {c : CodePoint} {after : Text} (hrest : rest = c :: after) :
    c ≠ '.' ∧ c ≠ 'e' ∧ c ≠ 'E' ∧ c ≠ '-' ∧ c ≠ '+' := by
  subst hrest
  obtain rfl | rfl | rfl | rfl := h c rfl <;> decide

/-- What closes a value is not taken for digits of a number. -/
theorem spanDigits_append (t : Text) (h : Closes rest) :
    spanDigits (t ++ rest) = ((spanDigits t).1, (spanDigits t).2 ++ rest) := by
  simp only [spanDigits_eq]
  induction t with
  | nil =>
    cases rest with
    | nil => rfl
    | cons c rest => simp [h.isDigit c rfl]
  | cons c t ih =>
    rw [Prod.mk.injEq] at ih
    rw [List.cons_append, List.takeWhile_cons, List.takeWhile_cons, List.dropWhile_cons,
      List.dropWhile_cons]
    cases c.isDigit with
    | true => simp [ih]
    | false => rfl

theorem readPlaces_of_ne {c : CodePoint} (hc : c ≠ '.') : readPlaces (c :: t) = (none, c :: t) := by
  unfold readPlaces
  split
  · next heq => exact absurd (List.cons.inj heq).1 hc
  · rfl

theorem readPlaces_append (t : Text) (h : Closes rest) :
    readPlaces (t ++ rest) = ((readPlaces t).1, (readPlaces t).2 ++ rest) := by
  cases t with
  | nil =>
    cases rest with
    | nil => rfl
    | cons c rest => exact readPlaces_of_ne (h.ne rfl).1
  | cons c t =>
    by_cases hc : c = '.'
    · subst hc
      rw [List.cons_append, readPlaces, spanDigits_append t h, readPlaces]
      simp only
      split <;> rfl
    · rw [List.cons_append, readPlaces_of_ne hc, readPlaces_of_ne hc]
      rfl

/-- The sign in front of a text, and the text behind it. -/
def signed (t : Text) : Bool × Text :=
  match t with
  | '-' :: after => (true, after)
  | '+' :: after => (false, after)
  | after => (false, after)

theorem signed_of_ne {c : CodePoint} (hminus : c ≠ '-') (hplus : c ≠ '+') :
    signed (c :: t) = (false, c :: t) := by
  unfold signed
  split
  · next heq => exact absurd (List.cons.inj heq).1 hminus
  · next heq => exact absurd (List.cons.inj heq).1 hplus
  · rfl

theorem signed_append (t : Text) (h : Closes rest) :
    signed (t ++ rest) = ((signed t).1, (signed t).2 ++ rest) := by
  cases t with
  | nil =>
    cases rest with
    | nil => rfl
    | cons c rest =>
      obtain ⟨-, -, -, hminus, hplus⟩ := h.ne rfl
      exact signed_of_ne hminus hplus
  | cons c t =>
    by_cases hminus : c = '-'
    · subst hminus
      rfl
    · by_cases hplus : c = '+'
      · subst hplus
        rfl
      · rw [List.cons_append, signed_of_ne hminus hplus, signed_of_ne hminus hplus]
        rfl

theorem readExponent_append (t : Text) (h : Closes rest) :
    readExponent (t ++ rest) = ((readExponent t).1, (readExponent t).2 ++ rest) := by
  cases t with
  | nil =>
    cases rest with
    | nil => rfl
    | cons c rest =>
      obtain ⟨-, he, hE, -⟩ := h.ne rfl
      exact if_neg (by simp [he, hE])
  | cons c t =>
    have heq (t : Text) : readExponent (c :: t) =
        if c = 'e' || c = 'E' then
          let n : Int := ofDigits ((spanDigits (signed t).2).1.map fun c => c.toNat - 48)
          if (spanDigits (signed t).2).1.isEmpty then (none, c :: t)
          else (some (if (signed t).1 then -n else n), (spanDigits (signed t).2).2)
        else (none, c :: t) := rfl
    rw [List.cons_append, heq, heq, signed_append t h, spanDigits_append _ h]
    split
    · simp only
      split <;> rfl
    · rfl

/-- The digits in front of a point, and the text behind them. A zero is no leading digit. -/
def wholePart (t : Text) : Text × Text :=
  let (whole, rest) := spanDigits t
  match whole with
  | '0' :: more => ("0".toText, more ++ rest)
  | _ => (whole, rest)

/-- What the parts of a number come to. -/
def numberOf (negative : Bool) (whole : Text) : Option Text → Option Int → Option Json
  | none, none =>
    if maxDigits < whole.length then none
    else
      let n : Int := ofDigits (whole.map fun c => c.toNat - 48)
      some (.int (if negative then -n else n))
  | places, exponent =>
    let x := floatOf (ofDigits ((whole ++ places.getD []).map fun c => c.toNat - 48))
      (exponent.getD 0 - (places.getD []).length)
    some (.float (if negative then -x else x))

theorem readNumber_eq (negative : Bool) (t : Text) :
    readNumber negative t =
      if (wholePart t).1.isEmpty then none
      else
        let places := readPlaces (wholePart t).2
        let exponent := readExponent places.2
        (numberOf negative (wholePart t).1 places.1 exponent.1).map (·, exponent.2) := by
  unfold readNumber
  split
  next whole after hspan =>
  split
  next taken after' htaken =>
  have hwhole : wholePart t = (taken, after') := by
    rw [wholePart, hspan]
    exact htaken
  rw [hwhole]
  split
  · rfl
  · simp only
    cases (readPlaces after').1 <;> cases (readExponent (readPlaces after').2).1
    all_goals try rfl
    simp only [numberOf]
    split <;> rfl

theorem wholePart_append (t : Text) (h : Closes rest) :
    wholePart (t ++ rest) = ((wholePart t).1, (wholePart t).2 ++ rest) := by
  unfold wholePart
  rw [spanDigits_append t h]
  simp only
  split
  · rw [List.append_assoc]
  · rfl

theorem readNumber_append {negative : Bool} {v : Json} {after : Text}
    (h : readNumber negative t = some (v, after)) (hrest : Closes rest) :
    readNumber negative (t ++ rest) = some (v, after ++ rest) := by
  rw [readNumber_eq] at h ⊢
  rw [wholePart_append t hrest]
  simp only at h ⊢
  rw [readPlaces_append _ hrest, readExponent_append _ hrest]
  split at h
  · cases h
  · next hdigits =>
    obtain ⟨value, hvalue, heq⟩ := Option.map_eq_some_iff.mp h
    cases heq
    rw [if_neg hdigits, hvalue]
    rfl

/-- Only the digits of zero begin with a zero. -/
theorem digitsIn_eq_zero_cons {n : Nat} {more : Text} (h : digitsIn 10 n = .char '0' :: more) :
    more = [] := by
  have hmore : ∀ c ∈ more, c.isDigit = true := fun c hc =>
    isDigit_of_mem_digitsIn (n := n) (h ▸ List.mem_cons_of_mem _ hc)
  have hvalue : ofDigits (more.map (·.toNat - 48)) = n := by
    rw [← ofDigits_digitsIn n, h]
    rfl
  have hlt : n < 10 ^ more.length := hvalue ▸ ofDigits_lt_of_isDigit hmore
  refine List.length_eq_zero_iff.mp (Nat.eq_zero_of_not_pos fun hpos => ?_)
  have hle := (Nat.length_toDigits_le_iff (by decide) hpos).mpr hlt
  have hlength : (digitsIn 10 n).length = (Nat.toDigits 10 n).length := List.length_map _
  rw [h, List.length_cons] at hlength
  omega

/-- An integer is read of its digits. -/
theorem readNumber_digitsIn (negative : Bool) {n : Nat}
    (hn : (digitsIn 10 n).length ≤ maxDigits) (hrest : Closes rest) :
    readNumber negative (digitsIn 10 n ++ rest) =
      some (.int (if negative then -(n : Int) else n), rest) := by
  have hall : ∀ c ∈ digitsIn 10 n, c.isDigit = true := fun _ => isDigit_of_mem_digitsIn
  have hspan : spanDigits (digitsIn 10 n) = (digitsIn 10 n, []) := by
    rw [spanDigits_eq, List.takeWhile_eq_self_iff.mpr hall, List.dropWhile_eq_nil_iff.mpr hall]
  have hwhole : wholePart (digitsIn 10 n) = (digitsIn 10 n, []) := by
    rw [wholePart, hspan]
    simp only
    split
    · next more heq =>
      cases digitsIn_eq_zero_cons heq
      rw [heq]
      rfl
    · rfl
  have hread : readNumber negative (digitsIn 10 n) =
      some (.int (if negative then -(n : Int) else n), []) := by
    rw [readNumber_eq, hwhole, if_neg (by simp [digitsIn_ne_nil])]
    simp only [readPlaces, readExponent, numberOf, if_neg (Nat.not_lt.mpr hn), ofDigits_digitsIn,
      Option.map_some]
  exact readNumber_append hread hrest

end Numbers

section Words

theorem eq_append_of_afterWord? {word after : Text} (h : afterWord? word t = some after) :
    t = word ++ after := by
  unfold afterWord? at h
  split at h
  · next hprefix =>
    cases h
    obtain ⟨after, rfl⟩ := List.isPrefixOf_iff_prefix.mp hprefix
    rw [List.drop_left]
  · cases h

theorem afterWord?_append (word after : Text) : afterWord? word (word ++ after) = some after := by
  rw [afterWord?, if_pos (List.isPrefixOf_iff_prefix.mpr (List.prefix_append _ _)), List.drop_left]

theorem afterWord?_infinity {d : CodePoint} (hd : d.isDigit = true) (t : Text) :
    afterWord? "Infinity".toText (d :: t) = none := by
  have hne : d ≠ 'I' := by
    rintro rfl
    cases hd
  exact if_neg (by simp [String.toText, hne.symm])

/-- A number begins with a digit. -/
theorem isDigit_of_readNumber {negative : Bool} {v : Json} {after : Text}
    (h : readNumber negative t = some (v, after)) : ∃ d u, t = d :: u ∧ d.isDigit = true := by
  cases t with
  | nil => cases h
  | cons d u =>
    refine ⟨d, u, rfl, ?_⟩
    rw [readNumber_eq, wholePart, spanDigits_eq, List.takeWhile_cons] at h
    cases hd : d.isDigit with
    | true => rfl
    | false =>
      rw [hd] at h
      cases h

theorem readValue_digit {d : CodePoint} (hd : d.isDigit = true) (fuel : Nat) (after : Text) :
    readValue (fuel + 1) (d :: after) = readNumber false (d :: after) := by
  unfold readValue
  split
  · next heq => cases heq
  · next heq =>
    cases heq
    cases hd
  · next heq =>
    cases heq
    cases hd
  · next heq =>
    cases heq
    cases hd
  · next heq =>
    cases heq
    cases hd
  · next heq =>
    cases heq
    rw [if_pos hd]

/-- A double that is read of a text to its end is read in front of what closes a value. -/
theorem readValue_append {x : Float} (h : readValue 1 t = some (.float x, [])) (fuel : Nat)
    (hrest : Closes rest) : readValue (fuel + 1) (t ++ rest) = some (.float x, rest) := by
  unfold readValue at h
  split at h
  · cases h
  · obtain ⟨r, -, heq⟩ := Option.map_eq_some_iff.mp h
    cases heq
  · split at h
    · cases h
    · cases h
  · split at h
    · cases h
    · cases h
  · next u =>
    rw [List.cons_append, readValue]
    split at h
    · next after hword =>
      cases h
      rw [eq_append_of_afterWord? hword, List.append_nil, afterWord?_append]
    · next hword =>
      obtain ⟨d, u', rfl, hd⟩ := isDigit_of_readNumber h
      rw [List.cons_append, afterWord?_infinity hd, ← List.cons_append,
        readNumber_append h hrest]
      rfl
  · next c u _ _ _ _ =>
    split at h
    · next hc =>
      rw [List.cons_append, readValue_digit hc, ← List.cons_append, readNumber_append h hrest]
      rfl
    · obtain ⟨⟨word, value⟩, hmem, hword⟩ := List.exists_of_findSome?_eq_some h
      obtain ⟨after, hafter, heq⟩ := Option.map_eq_some_iff.mp hword
      cases heq
      rw [eq_append_of_afterWord? hafter, List.append_nil]
      simp only [List.mem_cons, List.not_mem_nil, or_false] at hmem
      obtain h | h | h | h | h := hmem <;> cases h <;> rfl

end Words

end Concordance.Json
