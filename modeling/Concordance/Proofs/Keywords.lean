import Concordance.Query.Token

/-!
# Which tokens are connectives

A token is a connective exactly when it has the letters of a keyword, each of them a
capital or a small one. No other letter has a capital that keywords are spelled with.
-/
namespace Concordance

/-- A token has the letters of a keyword, each of them a capital or a small one. -/
def Operator.Spells (op : Operator) (token : Text) : Prop :=
  token.map CodePoint.toUpper = op.keyword

instance (op : Operator) (token : Text) : Decidable (op.Spells token) :=
  inferInstanceAs (Decidable (token.map CodePoint.toUpper = op.keyword))

theorem capitals_ne_nil (c : CodePoint) : capitals c ≠ [] := by
  unfold capitals
  split <;> simp

/-- Capitals that begin with a letter of a keyword are those of an ASCII letter. -/
theorem capitals_eq_cons {c k : CodePoint} {rest : Text} (h : capitals c = k :: rest)
    (hS : k ≠ 'S') (hI : k ≠ 'I') (hF : k ≠ 'F') : c.toUpper = k ∧ rest = [] := by
  unfold capitals at h
  split at h <;> cases h <;> first | contradiction | exact ⟨rfl, rfl⟩

/-- An ASCII letter has one capital. -/
theorem capitals_eq {c k : CodePoint} (h : c.toUpper = k) (hk : k.toNat < 128) :
    capitals c = [k] := by
  unfold capitals
  split
  all_goals first
    | exact congrArg (fun c => [c]) h
    | (subst h; contradiction)

/-- A letter that is the capital of no character but itself and its small form. -/
def isPlainCapital (k : CodePoint) : Bool := k != 'S' && k != 'I' && k != 'F' && k.toNat < 128

theorem upper_eq_iff {token keyword : Text} (h : ∀ k ∈ keyword, isPlainCapital k = true) :
    upper token = keyword ↔ token.map CodePoint.toUpper = keyword := by
  induction keyword generalizing token with
  | nil =>
    cases token with
    | nil => exact Iff.rfl
    | cons c rest =>
      have hne : upper (c :: rest) ≠ [] := by
        rw [upper, List.flatMap_cons]
        exact List.append_ne_nil_of_left_ne_nil (capitals_ne_nil c) _
      exact iff_of_false hne (List.cons_ne_nil _ _)
  | cons k ks ih =>
    have hk := h k List.mem_cons_self
    simp only [isPlainCapital, Bool.and_eq_true, bne_iff_ne, decide_eq_true_eq] at hk
    have hks : ∀ k ∈ ks, isPlainCapital k = true := fun k hk => h k (List.mem_cons_of_mem _ hk)
    cases token with
    | nil => exact iff_of_false (List.cons_ne_nil k ks).symm (List.cons_ne_nil k ks).symm
    | cons c rest =>
      rw [upper, List.flatMap_cons, List.map_cons, ← upper, List.cons.injEq, ← ih hks]
      constructor
      · intro heq
        cases hc : capitals c with
        | nil => exact absurd hc (capitals_ne_nil c)
        | cons k' more =>
          rw [hc, List.cons_append, List.cons.injEq] at heq
          obtain ⟨rfl, heq⟩ := heq
          obtain ⟨hupper, rfl⟩ := capitals_eq_cons hc hk.1.1.1 hk.1.1.2 hk.1.2
          exact ⟨hupper, heq⟩
      · rintro ⟨hupper, hrest⟩
        rw [capitals_eq hupper hk.2, hrest]
        rfl

namespace Operator

theorem upper_eq_keyword_iff (op : Operator) (token : Text) :
    op.keyword = upper token ↔ op.Spells token := by
  have hplain : op.keyword.all isPlainCapital = true := by cases op <;> decide
  rw [Spells, ← upper_eq_iff (List.all_eq_true.mp hplain), eq_comm]

theorem ofToken?_eq_some {op : Operator} {token : Text} (h : op.Spells token) :
    ofToken? token = some op := by
  have hupper := (upper_eq_keyword_iff op token).mpr h
  rw [ofToken?, ← hupper]
  cases op <;> rfl

theorem ofToken?_eq_none {token : Text} (h : ∀ op : Operator, ¬op.Spells token) :
    ofToken? token = none := by
  rw [ofToken?, List.find?_eq_none]
  intro op _ hop
  exact h op ((upper_eq_keyword_iff op token).mp (of_decide_eq_true hop))

end Operator

end Concordance
