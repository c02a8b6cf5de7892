import Concordance.Proofs.Search
import Mathlib.Order.Bounds.Basic

/-!
# Where the common documents are known

The common elements of many sets are taken set by set. Once the sets that were looked at have
none, the others cannot give any, and they are not looked at.
-/
namespace Concordance

namespace DocSet

/-- Each number is missing from one of the sets. -/
def NoneCommon (l : List DocSet) : Prop := ∀ d, ∃ s ∈ l, d ∉ s

variable {s t : DocSet} {l first : List DocSet}

theorem not_noneCommon_nil : ¬NoneCommon [] := by
  intro h
  obtain ⟨s, hs, -⟩ := h 0
  cases hs

/-- Two sets may be replaced by what they have in common. -/
theorem noneCommon_inter : NoneCommon (s.inter t :: l) ↔ NoneCommon (s :: t :: l) := by
  refine forall_congr' fun d => ?_
  rw [List.exists_mem_cons_iff, List.exists_mem_cons_iff, List.exists_mem_cons_iff, mem_inter,
    not_and_or, or_assoc]

theorem noneCommon_singleton : NoneCommon [s] ↔ s.isEmpty := by
  rw [isEmpty_iff]
  constructor
  · intro h
    refine ext fun d => iff_of_false ?_ (not_mem_empty d)
    obtain ⟨t, ht, hd⟩ := h d
    rwa [← List.mem_singleton.mp ht]
  · rintro rfl d
    exact ⟨.empty, List.mem_cons_self, not_mem_empty d⟩

theorem interAll_of_isEmpty (h : s.isEmpty) (l : List DocSet) : s.interAll l = (.empty, 0) := by
  cases l with
  | nil => rw [isEmpty_iff.mp h, interAll]
  | cons t rest => rw [interAll, if_pos h]

theorem interAll_cons (h : ¬s.isEmpty) (t : DocSet) (l : List DocSet) :
    s.interAll (t :: l) = (((s.inter t).interAll l).1, ((s.inter t).interAll l).2 + 1) := by
  rw [interAll, if_neg h]

theorem interAll_snd_le (s : DocSet) (l : List DocSet) : (s.interAll l).2 ≤ l.length := by
  induction l generalizing s with
  | nil => exact Nat.le_refl 0
  | cons t rest ih =>
    by_cases hempty : s.isEmpty
    · rw [interAll_of_isEmpty hempty]
      exact Nat.zero_le _
    · rw [interAll_cons hempty]
      exact Nat.succ_le_succ (ih (s.inter t))

/-- What is behind sets without a common element is not looked at. -/
theorem interAll_append (h : NoneCommon (s :: first)) (behind : List DocSet) :
    s.interAll (first ++ behind) = s.interAll first := by
  induction first generalizing s with
  | nil =>
    have hempty := noneCommon_singleton.mp h
    rw [interAll_of_isEmpty hempty, interAll_of_isEmpty hempty]
  | cons t first ih =>
    by_cases hempty : s.isEmpty
    · rw [interAll_of_isEmpty hempty, interAll_of_isEmpty hempty]
    · rw [List.cons_append, interAll_cons hempty, interAll_cons hempty,
        ih (noneCommon_inter.mpr h)]

/-- Sets are left over only behind sets without a common element. -/
theorem noneCommon_of_interAll_lt (h : (s.interAll l).2 < l.length) :
    NoneCommon (s :: l.take (s.interAll l).2) := by
  induction l generalizing s with
  | nil => cases h
  | cons t rest ih =>
    by_cases hempty : s.isEmpty
    · rw [interAll_of_isEmpty hempty]
      exact noneCommon_singleton.mpr hempty
    · rw [interAll_cons hempty] at h ⊢
      rw [List.take_succ_cons, ← noneCommon_inter]
      exact ih (Nat.lt_of_succ_lt_succ h)

/-- The lengths of the beginnings of a list of sets that have no common element. -/
def emptyAfter (l : List DocSet) : Set Nat :=
  {n | ∃ first, first <+: l ∧ first ≠ [] ∧ NoneCommon first ∧ n = first.length}

theorem interMany_append (h : NoneCommon first) (behind : List DocSet) :
    interMany (first ++ behind) = interMany first := by
  cases first with
  | nil => exact absurd h not_noneCommon_nil
  | cons s first => rw [List.cons_append, interMany, interMany, interAll_append h]

theorem interMany_snd_le (l : List DocSet) : (interMany l).2 ≤ l.length := by
  cases l with
  | nil => exact Nat.le_refl 0
  | cons s rest => exact Nat.succ_le_succ (s.interAll_snd_le rest)

theorem mem_emptyAfter_of_lt (h : (interMany l).2 < l.length) : (interMany l).2 ∈ emptyAfter l := by
  cases l with
  | nil => cases h
  | cons s rest =>
    have hnone := noneCommon_of_interAll_lt (Nat.lt_of_succ_lt_succ h)
    refine ⟨s :: rest.take (s.interAll rest).2, ?_, nofun, hnone, ?_⟩
    · exact List.cons_prefix_cons.mpr ⟨rfl, List.take_prefix _ _⟩
    · rw [List.length_cons, List.length_take_of_le (s.interAll_snd_le rest)]
      rfl

theorem interMany_snd_le_of_mem {n : Nat} (h : n ∈ emptyAfter l) : (interMany l).2 ≤ n := by
  obtain ⟨first, ⟨behind, rfl⟩, -, hnone, rfl⟩ := h
  rw [interMany_append hnone]
  exact interMany_snd_le first

/-- The sets that are looked at are the shortest beginning without a common element, or all of them
if there is none. -/
theorem isLeast_interMany_or (l : List DocSet) :
    IsLeast (emptyAfter l) (interMany l).2 ∨
      emptyAfter l = ∅ ∧ (interMany l).2 = l.length := by
  rcases Nat.lt_or_ge (interMany l).2 l.length with hlt | hge
  · exact .inl ⟨mem_emptyAfter_of_lt hlt, fun n hn => interMany_snd_le_of_mem hn⟩
  · have hall : (interMany l).2 = l.length := Nat.le_antisymm (interMany_snd_le l) hge
    rcases Set.eq_empty_or_nonempty (emptyAfter l) with hnone | ⟨n, hn⟩
    · exact .inr ⟨hnone, hall⟩
    · -- Only the whole list is without a common element.
      have hle := interMany_snd_le_of_mem hn
      have hlength : n ≤ l.length := by
        obtain ⟨first, hfirst, -, -, rfl⟩ := hn
        exact hfirst.length_le
      have heq : n = (interMany l).2 := by omega
      exact .inl ⟨heq ▸ hn, fun m hm => interMany_snd_le_of_mem hm⟩

/-- To stop early leaves the common elements as they are. It is done at the first place where there
are none, and whatever comes behind that place makes no difference. -/
theorem interMany_spec (l : List DocSet) :
    (∀ d, d ∈ (interMany l).1 ↔ l ≠ [] ∧ ∀ s ∈ l, d ∈ s) ∧
      (IsLeast (emptyAfter l) (interMany l).2 ∨
        emptyAfter l = ∅ ∧ (interMany l).2 = l.length) ∧
      ∀ n ∈ emptyAfter l, ∀ behind, interMany (l.take n ++ behind) = interMany l := by
  refine ⟨fun d => ?_, isLeast_interMany_or l, ?_⟩
  · by_cases hl : l = []
    · subst hl
      exact iff_of_false (not_mem_empty d) fun h => h.1 rfl
    · rw [mem_interMany hl]
      exact (and_iff_right hl).symm
  · rintro n ⟨first, ⟨rest, rfl⟩, -, hnone, rfl⟩ behind
    rw [List.take_left, interMany_append hnone, interMany_append hnone]

example :
    interMany [.ofList [1, 2], .ofList [2, 3], .ofList [1, 3], .ofList [2]] = (.empty, 3) := by
  decide +kernel

end DocSet

end Concordance
