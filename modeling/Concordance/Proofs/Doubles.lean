import Mathlib.Data.Prod.Lex

/-!
# Doubles in order

Apart from what is no number, doubles are compared by their places in a linear order. A
double comes before another one, is equal to it or comes behind it as its place does.
-/
namespace Concordance

open Float.Model (UnpackedFloat)

section Comparison

variable {α β : Type} [LinearOrder α] [LinearOrder β]

theorem compare_eq_compare {a b : α} {c d : β} (hlt : a < b ↔ c < d) (hgt : b < a ↔ d < c) :
    compare a b = compare c d := by
  rcases lt_trichotomy a b with h | h | h
  · rw [compare_lt_iff_lt.mpr h, compare_lt_iff_lt.mpr (hlt.mp h)]
  · have hle : d ≤ c := not_lt.mp fun hcd => (h ▸ hlt.mpr hcd).false
    have hge : c ≤ d := not_lt.mp fun hdc => (h ▸ hgt.mpr hdc).false
    rw [compare_eq_iff_eq.mpr h, compare_eq_iff_eq.mpr (le_antisymm hge hle)]
  · rw [compare_gt_iff_gt.mpr h, compare_gt_iff_gt.mpr (hgt.mp h)]

theorem compare_toLex (a c : α) (b d : β) :
    compare (toLex (a, b)) (toLex (c, d)) = (compare a c).then (compare b d) := by
  rw [Prod.Lex.compare_def]
  rfl

/-- Magnitudes are compared by their exponents, and by their mantissas where these are equal. -/
theorem compare_magnitudes (e e' : Int) (m m' : Nat) :
    compare (toLex (e, (m : Int))) (toLex (e', (m' : Int))) =
      (compare e e').then (compare m m') := by
  have hmantissa : compare (m : Int) m' = compare m m' := compare_eq_compare (by omega) (by omega)
  rw [compare_toLex, hmantissa]

/-- Negative numbers are compared the other way round. -/
theorem compare_opposites (e e' m m' : Int) :
    compare (toLex (-e, -m)) (toLex (-e', -m')) =
      (compare (toLex (e, m)) (toLex (e', m'))).swap := by
  have hneg (a b : Int) : compare (-a) (-b) = (compare a b).swap := by
    have hswap : compare b a = (compare a b).swap := Std.OrientedCmp.eq_swap
    rw [← hswap]
    exact compare_eq_compare (by omega) (by omega)
  rw [compare_toLex, compare_toLex, Ordering.swap_then, hneg, hneg]

end Comparison

/-- The place of a double: its class, from negative infinity up to positive infinity, and in its
class the exponent and the mantissa, counted downwards if it is negative. What is no number is put
behind all others. -/
def placeOf : UnpackedFloat → Int ×ₗ Int ×ₗ Int
  | .infinity .negative => toLex (-2, toLex (0, 0))
  | .finite .negative mantissa exponent _ => toLex (-1, toLex (-exponent, -mantissa))
  | .zero _ => toLex (0, toLex (0, 0))
  | .finite .positive mantissa exponent _ => toLex (1, toLex (exponent, mantissa))
  | .infinity .positive => toLex (2, toLex (0, 0))
  | .notANumber => toLex (3, toLex (0, 0))

/-- Numbers are compared as their places are. Only in the classes of many numbers something else
than the classes is compared. -/
theorem compare_eq_placeOf {a b : UnpackedFloat} (ha : a.isNaN = false) (hb : b.isNaN = false) :
    a.compare b = some (compare (placeOf a) (placeOf b)) := by
  cases a with
  | notANumber => contradiction
  | infinity s =>
    cases b with
    | notANumber => contradiction
    | infinity s' => cases s <;> cases s' <;> rfl
    | zero s' => cases s <;> rfl
    | finite s' m' e' _ => cases s <;> cases s' <;> rfl
  | zero s =>
    cases b with
    | notANumber => contradiction
    | infinity s' => cases s' <;> rfl
    | zero s' => rfl
    | finite s' m' e' _ => cases s' <;> rfl
  | finite s m e _ =>
    cases b with
    | notANumber => contradiction
    | infinity s' => cases s <;> cases s' <;> rfl
    | zero s' => cases s <;> rfl
    | finite s' m' e' _ =>
      cases s with
      | negative =>
        cases s' with
        | positive => rfl
        | negative =>
          show _ = some (compare (toLex ((-1 : Int), toLex (-e, -(m : Int))))
            (toLex (-1, toLex (-e', -(m' : Int)))))
          rw [compare_toLex, compare_opposites, compare_magnitudes]
          rfl
      | positive =>
        cases s' with
        | negative => rfl
        | positive =>
          show _ = some (compare (toLex ((1 : Int), toLex (e, (m : Int))))
            (toLex (1, toLex (e', (m' : Int)))))
          rw [compare_toLex, compare_magnitudes]
          rfl

/-- The place of a double among all of them. -/
def place (x : Float) : Int ×ₗ Int ×ₗ Int := placeOf x.toModel.unpack

variable {x y : Float}

theorem lt_iff_place (hx : x.isNaN = false) (hy : y.isNaN = false) : x < y ↔ place x < place y := by
  have hlt : (x < y) =
      (decide ((x.toModel.unpack.compare y.toModel.unpack == some .lt) = true) = true) := rfl
  rw [hlt, decide_eq_true_iff, compare_eq_placeOf hx hy, beq_iff_eq, Option.some.injEq,
    compare_lt_iff_lt, place, place]

theorem beq_iff_place (hx : x.isNaN = false) (hy : y.isNaN = false) :
    (x == y) = true ↔ place x = place y := by
  have hbeq : (x == y) = (x.toModel.unpack.compare y.toModel.unpack == some .eq) := rfl
  rw [hbeq, compare_eq_placeOf hx hy, beq_iff_eq, Option.some.injEq, compare_eq_iff_eq, place,
    place]

end Concordance
