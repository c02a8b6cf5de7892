/-!
# Stable ordering of lists

Insertion into an ordered list, and the sort it gives. Equal elements keep the
order in which they were listed. In what is ordered, places are found by halving.
-/
namespace Concordance

variable {α : Type} {le : α → α → Bool}

/-- Puts `a` in front of the first element it need not follow. -/
def insertBy (le : α → α → Bool) (a : α) : List α → List α
  | [] => [a]
  | b :: rest => if le a b then a :: b :: rest else b :: insertBy le a rest

/-- The elements in the order `le`, those that tie in the order of the list. -/
def sortBy (le : α → α → Bool) : List α → List α
  | [] => []
  | a :: rest => insertBy le a (sortBy le rest)

theorem mem_insertBy {a b : α} {l : List α} : b ∈ insertBy le a l ↔ b = a ∨ b ∈ l := by
  induction l with
  | nil => simp [insertBy]
  | cons c rest ih =>
    simp only [insertBy]
    split
    · simp
    · simp only [List.mem_cons, ih]
      constructor <;> rintro (h | h | h) <;> simp [h]

theorem pairwise_insertBy (trans : ∀ a b c, le a b → le b c → le a c)
    (total : ∀ a b, le a b ∨ le b a) (a : α) {l : List α} (h : l.Pairwise fun b c => le b c) :
    (insertBy le a l).Pairwise fun b c => le b c := by
  induction l with
  | nil => simp [insertBy]
  | cons b rest ih =>
    have hr := List.pairwise_cons.1 h
    simp only [insertBy]
    split
    · next hab =>
      refine List.pairwise_cons.2 ⟨fun c hc => ?_, h⟩
      rcases List.mem_cons.1 hc with rfl | hc
      · exact hab
      · exact trans _ _ _ hab (hr.1 c hc)
    · next hab =>
      refine List.pairwise_cons.2 ⟨fun c hc => ?_, ih hr.2⟩
      rcases mem_insertBy.1 hc with rfl | hc
      · exact (total c b).resolve_left hab
      · exact hr.1 c hc

/-- Where `le` is transitive and total, the result is in order. -/
theorem pairwise_sortBy (trans : ∀ a b c, le a b → le b c → le a c)
    (total : ∀ a b, le a b ∨ le b a) (l : List α) : (sortBy le l).Pairwise fun a b => le a b := by
  induction l with
  | nil => simp [sortBy]
  | cons a rest ih => exact pairwise_insertBy trans total a ih

/-- The first of the places from `lo` to `hi` that is not `below`, where all that are come before
it. Half of the places are left out at a time. -/
@[semireducible]
def firstPlace (below : Nat → Bool) (lo hi : Nat) : Nat :=
  if lo < hi then
    let mid := (lo + hi) / 2
    if below mid then firstPlace below (mid + 1) hi else firstPlace below lo mid
  else lo
termination_by hi - lo

/-- No place is left out that has to be looked at: halving finds the border between the places that
are `below` and the others. -/
theorem firstPlace_spec {below : Nat → Bool} (hbelow : ∀ i j, i ≤ j → below j → below i)
    {lo hi : Nat} (h : lo ≤ hi) :
    lo ≤ firstPlace below lo hi ∧ firstPlace below lo hi ≤ hi ∧
      (∀ i, lo ≤ i → i < firstPlace below lo hi → below i) ∧
      ∀ i, firstPlace below lo hi ≤ i → i < hi → ¬below i := by
  fun_induction firstPlace below lo hi with
  | case1 lo hi hlt mid hmid ih =>
    obtain ⟨hle, hhi, hbefore, hbehind⟩ := ih (by omega)
    refine ⟨by omega, hhi, fun i _ hi => ?_, hbehind⟩
    by_cases hi' : i ≤ mid
    · exact hbelow i mid hi' hmid
    · exact hbefore i (by omega) hi
  | case2 lo hi hlt mid hmid ih =>
    obtain ⟨hle, hhi, hbefore, hbehind⟩ := ih (by omega)
    refine ⟨hle, by omega, hbefore, fun i hi _ hi' => ?_⟩
    by_cases hlt' : i < mid
    · exact hbehind i hi hlt' hi'
    · exact hmid (hbelow mid i (by omega) hi')
  | case3 lo hi hge => exact ⟨Nat.le_refl lo, h, fun i _ _ => by omega, fun i _ _ => by omega⟩

end Concordance
