import Concordance.Order
import Concordance.Proofs.CodePoints
import Concordance.Text

/-!
# Sorted lists

Sorting changes the order of a list and nothing else, and leaves alone what is in order.
-/
namespace Concordance

variable {α : Type} {le : α → α → Bool}

/-- A list that is in order stays as it is when it is sorted. -/
theorem sortBy_of_pairwise {l : List α} (h : l.Pairwise fun a b => le a b) : sortBy le l = l := by
  induction l with
  | nil => rfl
  | cons a rest ih =>
    have hr := List.pairwise_cons.mp h
    rw [sortBy, ih hr.2]
    cases rest with
    | nil => rfl
    | cons b rest => rw [insertBy, if_pos (hr.1 b List.mem_cons_self)]

theorem perm_insertBy (a : α) (l : List α) : (insertBy le a l).Perm (a :: l) := by
  induction l with
  | nil => exact .refl _
  | cons b rest ih =>
    unfold insertBy
    split
    · exact .refl _
    · exact (ih.cons b).trans (.swap a b rest)

theorem perm_sortBy (l : List α) : (sortBy le l).Perm l := by
  induction l with
  | nil => exact .refl _
  | cons a rest ih => exact (perm_insertBy a _).trans (ih.cons a)

/-- Where no two elements of a list tie, their order does not matter to its sorting. -/
theorem sortBy_eq_of_perm (trans : ∀ a b c, le a b → le b c → le a c)
    (total : ∀ a b, le a b ∨ le b a) {l l' : List α}
    (antisymm : ∀ a ∈ l, ∀ b ∈ l, le a b → le b a → a = b) (h : l.Perm l') :
    sortBy le l = sortBy le l' := by
  refine ((perm_sortBy l).trans (h.trans (perm_sortBy l').symm)).eq_of_pairwise
    (fun a b ha hb => ?_) (pairwise_sortBy trans total l) (pairwise_sortBy trans total l')
  exact antisymm a ((perm_sortBy l).mem_iff.mp ha) b
    (h.mem_iff.mpr ((perm_sortBy l').mem_iff.mp hb))

theorem insertBy_congr {le' : α → α → Bool} {a : α} {l : List α} (h : ∀ b ∈ l, le a b = le' a b) :
    insertBy le a l = insertBy le' a l := by
  induction l with
  | nil => rfl
  | cons b rest ih =>
    obtain ⟨hb, hrest⟩ := List.forall_mem_cons.mp h
    rw [insertBy, insertBy, hb, ih hrest]

/-- Only the elements of a list are compared. -/
theorem sortBy_congr {le' : α → α → Bool} {l : List α}
    (h : ∀ a ∈ l, ∀ b ∈ l, le a b = le' a b) : sortBy le l = sortBy le' l := by
  induction l with
  | nil => rfl
  | cons a rest ih =>
    have hrest : ∀ b ∈ rest, ∀ c ∈ rest, le b c = le' b c := fun b hb c hc =>
      h b (.tail _ hb) c (.tail _ hc)
    rw [sortBy, sortBy, ih hrest]
    exact insertBy_congr fun b hb =>
      h a (.head _) b (.tail _ ((perm_sortBy rest).mem_iff.mp hb))

theorem sortBy_int_eq_of_perm {l l' : List Int} (h : l.Perm l') :
    sortBy (fun a b => a ≤ b) l = sortBy (fun a b => a ≤ b) l' := by
  refine sortBy_eq_of_perm ?_ ?_ ?_ h
  all_goals
    intros
    simp only [decide_eq_true_eq] at *
    omega

theorem sortBy_text_eq_of_perm {l l' : List Text} (h : l.Perm l') :
    sortBy (fun a b => !(b < a : Bool)) l = sortBy (fun a b => !(b < a : Bool)) l' := by
  refine sortBy_eq_of_perm (fun a b c hab hbc => ?_) (fun a b => ?_) (fun a _ b _ hab hba => ?_) h
  all_goals simp only [Bool.not_eq_true', decide_eq_false_iff_not, List.not_lt] at *
  · exact List.le_trans hab hbc
  · exact List.le_total a b
  · exact List.le_antisymm hab hba

end Concordance
