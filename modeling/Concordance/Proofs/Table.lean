import Concordance.Table
import Mathlib.Algebra.BigOperators.Group.List.Basic
import Mathlib.Algebra.Ring.Nat
import Mathlib.Data.List.Count
import Mathlib.Data.List.Nodup
import Mathlib.Data.List.Perm.Basic

/-!
# Tables as finite maps

A table is read by `get?`. The lemmas below say what `get?` finds after a list of
updates, and how the order of the entries follows from the order of the updates.
-/
namespace Concordance.Table

variable {κ α β : Type}

theorem ext {t u : Table κ α} (h : t.entries = u.entries) : t = u := by
  cases t
  cases u
  simp_all

theorem nodup_keys (t : Table κ α) : t.keys.Nodup := t.distinct

theorem length_keys (t : Table κ α) : t.keys.length = t.size := List.length_map _

variable [DecidableEq κ]

/-- No other entry has the key of the first one. -/
theorem lookup_tail_eq_none {k : κ} {a : α} {rest : List (κ × α)}
    (h : (((k, a) :: rest).map Prod.fst).Nodup) : rest.lookup k = none := by
  rw [List.map_cons, List.nodup_cons] at h
  rw [List.lookup_eq_none_iff]
  intro p hp
  have hne : k ≠ p.1 := fun he => h.1 (List.mem_map.mpr ⟨p, hp, he.symm⟩)
  simp [hne]

theorem mem_entries_iff {t : Table κ α} {k : κ} {a : α} :
    (k, a) ∈ t.entries ↔ t.get? k = some a := by
  obtain ⟨entries, hd⟩ := t
  simp only [get?]
  induction entries with
  | nil => simp
  | cons e rest ih =>
    obtain ⟨k₁, a₁⟩ := e
    rw [List.mem_cons, lookup_entry, ih (List.nodup_cons.mp hd).2]
    by_cases hk : k = k₁
    · subst hk
      simp [lookup_tail_eq_none hd, eq_comm]
    · simp [hk]

/-- Tables that list the same entries are read alike, whatever the order is. -/
theorem get?_eq_of_perm {t u : Table κ α} (h : t.entries.Perm u.entries) (k : κ) :
    t.get? k = u.get? k :=
  Option.ext fun a => by rw [← mem_entries_iff, ← mem_entries_iff, h.mem_iff]

/-- Tables that are read alike list the same entries. -/
theorem perm_entries {t u : Table κ α} (h : ∀ k, t.get? k = u.get? k) :
    t.entries.Perm u.entries := by
  have hnodup (v : Table κ α) : v.entries.Nodup := List.Nodup.of_map Prod.fst v.distinct
  refine (List.perm_ext_iff_of_nodup (hnodup t) (hnodup u)).mpr ?_
  rintro ⟨k, a⟩
  rw [mem_entries_iff, mem_entries_iff, h]

theorem contains_iff {t : Table κ α} {k : κ} : t.contains k = true ↔ ∃ a, t.get? k = some a := by
  rw [contains, Option.isSome_iff_exists]

theorem contains_eq_false_iff {t : Table κ α} {k : κ} : t.contains k = false ↔ t.get? k = none := by
  rw [contains, Option.isSome_eq_false_iff, Option.isNone_iff_eq_none]

theorem contains_iff_ne_none {t : Table κ α} {k : κ} : t.contains k = true ↔ t.get? k ≠ none :=
  Option.isSome_iff_ne_none

theorem forall_mem_keys_set {P : κ → Prop} {t : Table κ α} {k : κ} (ht : ∀ k' ∈ t.keys, P k')
    (hk : P k) (a : α) : ∀ k' ∈ (t.set k a).keys, P k' := by
  intro k' hmem
  rcases mem_keys_set.mp hmem with rfl | hmem
  · exact hk
  · exact ht k' hmem

theorem setEntry_of_not_mem {k : κ} {entries : List (κ × α)} (h : k ∉ entries.map Prod.fst)
    (a : α) : setEntry k a entries = entries ++ [(k, a)] := by
  induction entries with
  | nil => rfl
  | cons e rest ih =>
    obtain ⟨k₁, a₁⟩ := e
    rw [List.map_cons, List.mem_cons, not_or] at h
    rw [setEntry, if_neg (Ne.symm h.1), ih h.2, List.cons_append]

/-- A key without a value is put behind all others. -/
theorem entries_set_of_new {t : Table κ α} {k : κ} (h : t.get? k = none) (a : α) :
    (t.set k a).entries = t.entries ++ [(k, a)] := by
  apply setEntry_of_not_mem
  intro hk
  have hs := mem_keys.mp hk
  rw [h] at hs
  contradiction

theorem keys_set_of_new {t : Table κ α} {k : κ} (h : t.get? k = none) (a : α) :
    (t.set k a).keys = t.keys ++ [k] := by
  rw [keys, entries_set_of_new h, List.map_append]
  rfl

theorem size_set_of_new {t : Table κ α} {k : κ} (h : t.get? k = none) (a : α) :
    (t.set k a).size = t.size + 1 := by
  rw [size, entries_set_of_new h, List.length_append]
  rfl

/-- A table that lists the entries of another one with other values. -/
theorem get?_of_entries_map {t : Table κ α} {u : Table κ β} {f : α → β}
    (h : u.entries = t.entries.map fun e => (e.1, f e.2)) (k : κ) :
    u.get? k = (t.get? k).map f := by
  rw [get?, h, get?]
  induction t.entries with
  | nil => rfl
  | cons e rest ih =>
    obtain ⟨k₁, a₁⟩ := e
    rw [List.map_cons, lookup_entry, lookup_entry, ih]
    split <;> rfl

/-- Setting the entries of a list with new and distinct keys puts the list behind the table. -/
theorem entries_foldl_set (l : List (κ × α)) (t : Table κ α)
    (h : (t.entries ++ l).map Prod.fst |>.Nodup) :
    (l.foldl (fun t e => t.set e.1 e.2) t).entries = t.entries ++ l := by
  induction l generalizing t with
  | nil => simp
  | cons e rest ih =>
    have hnew : t.get? e.1 = none := by
      rw [← contains_eq_false_iff, Bool.eq_false_iff]
      intro hc
      obtain ⟨a, ha⟩ := contains_iff.mp hc
      have hk : e.1 ∈ t.entries.map Prod.fst :=
        List.mem_map.mpr ⟨(e.1, a), mem_entries_iff.mpr ha, rfl⟩
      rw [List.map_append, List.nodup_append] at h
      exact h.2.2 e.1 hk e.1 (by simp) rfl
    have hset := entries_set_of_new hnew e.2
    rw [List.foldl_cons, ih (t.set e.1 e.2) (by rw [hset, List.append_assoc]; exact h), hset,
      List.append_assoc]
    rfl

/-- A table is rebuilt from its own entries. -/
theorem ofList_entries (t : Table κ α) : ofList t.entries = t := by
  apply ext
  exact entries_foldl_set t.entries empty t.distinct

theorem mem_of_get?_foldl_set {l : List (κ × α)} {t : Table κ α} {k : κ} {a : α}
    (h : (l.foldl (fun t e => t.set e.1 e.2) t).get? k = some a) :
    (k, a) ∈ l ∨ t.get? k = some a := by
  induction l generalizing t with
  | nil => exact .inr h
  | cons e rest ih =>
    obtain hmem | hset := ih h
    · exact .inl (.tail _ hmem)
    · rw [get?_set] at hset
      split at hset
      · next hk =>
        cases hset
        exact .inl (hk ▸ .head _)
      · exact .inr hset

/-- What a table has that is built of a list stands in the list. -/
theorem mem_of_get?_ofList {l : List (κ × α)} {k : κ} {a : α}
    (h : (ofList l).get? k = some a) : (k, a) ∈ l :=
  (mem_of_get?_foldl_set h).resolve_right (by simp)

theorem setEntry_map (f : α → β) (k : κ) (a : α) (entries : List (κ × α)) :
    setEntry k (f a) (entries.map fun e => (e.1, f e.2)) =
      (setEntry k a entries).map fun e => (e.1, f e.2) := by
  induction entries with
  | nil => rfl
  | cons e rest ih =>
    rw [List.map_cons, setEntry, setEntry, ih]
    split <;> rfl

theorem entries_foldl_set_map (f : α → β) (l : List (κ × α)) {t : Table κ α} {u : Table κ β}
    (h : u.entries = t.entries.map fun e => (e.1, f e.2)) :
    ((l.map fun e => (e.1, f e.2)).foldl (fun t e => t.set e.1 e.2) u).entries =
      (l.foldl (fun t e => t.set e.1 e.2) t).entries.map fun e => (e.1, f e.2) := by
  induction l generalizing t u with
  | nil => exact h
  | cons e rest ih =>
    refine ih (t := t.set e.1 e.2) (u := u.set e.1 (f e.2)) ?_
    show setEntry e.1 (f e.2) u.entries = _
    rw [h, setEntry_map]
    rfl

/-- A table of other values lists them where it lists the values. -/
theorem entries_ofList_map (f : α → β) (l : List (κ × α)) :
    (ofList (l.map fun e => (e.1, f e.2))).entries =
      (ofList l).entries.map fun e => (e.1, f e.2) :=
  entries_foldl_set_map f l rfl

/-- A pass over the entries of a table that updates the value of each key once. -/
theorem get?_foldl_update (step : Table κ β → κ × α → Table κ β) (g : Option β → α → β)
    (hstep : ∀ u e, step u e = u.set e.1 (g (u.get? e.1) e.2)) (t : Table κ α) (u : Table κ β)
    (k : κ) :
    (t.entries.foldl step u).get? k =
      match t.get? k with
      | some a => some (g (u.get? k) a)
      | none => u.get? k := by
  obtain ⟨entries, hd⟩ := t
  simp only [get?]
  show (entries.foldl step u).get? k = _
  induction entries generalizing u with
  | nil => rfl
  | cons e rest ih =>
    obtain ⟨k₁, a₁⟩ := e
    rw [List.foldl_cons, ih _ (List.nodup_cons.mp hd).2, hstep, lookup_entry]
    show (match rest.lookup k with
      | some a => some (g ((u.set k₁ (g (u.get? k₁) a₁)).get? k) a)
      | none => (u.set k₁ (g (u.get? k₁) a₁)).get? k) = _
    by_cases hk : k = k₁
    · subst hk
      rw [lookup_tail_eq_none hd, if_pos rfl]
      exact get?_set_self u k _
    · rw [if_neg hk, get?_set_of_ne u _ hk]
      rfl

theorem get?_filterKeys (p : κ → Bool) (t : Table κ α) (k : κ) :
    (t.filterKeys p).get? k = if p k then t.get? k else none := by
  show (t.entries.filter fun e => p e.1).lookup k = if p k then t.entries.lookup k else none
  induction t.entries with
  | nil => split <;> rfl
  | cons e rest ih =>
    obtain ⟨k₁, a₁⟩ := e
    rw [List.filter_cons, lookup_entry]
    by_cases hk : k = k₁
    · subst hk
      cases hp : p k with
      | true => simp
      | false =>
        rw [hp] at ih
        simpa using ih
    · cases hp : p k₁ with
      | true => simp only [if_true, lookup_entry, if_neg hk, ih]
      | false => simp only [Bool.false_eq_true, if_false, if_neg hk, ih]

/-- The table without a key. -/
def erase (t : Table κ α) (k : κ) : Table κ α := t.filterKeys fun k' => k' ≠ k

theorem get?_erase (t : Table κ α) (k k' : κ) :
    (t.erase k).get? k' = if k' = k then none else t.get? k' := by
  rw [erase, get?_filterKeys]
  by_cases hk : k' = k <;> simp [hk]

theorem erase_of_new {t : Table κ α} {k : κ} (h : t.get? k = none) : t.erase k = t := by
  refine ext (List.filter_eq_self.mpr ?_)
  rintro ⟨k', a⟩ he
  rw [decide_eq_true_iff]
  rintro rfl
  rw [mem_entries_iff, h] at he
  cases he

/-- A new value counts in place of the one that the key had, if it had one. -/
theorem sum_set {M : Type} [AddCommMonoid M] (f : α → M) (t : Table κ α) (k : κ) (a : α) :
    ((t.set k a).entries.map fun e => f e.2).sum + ((t.get? k).map f).getD 0 =
      (t.entries.map fun e => f e.2).sum + f a := by
  show ((setEntry k a t.entries).map fun e => f e.2).sum + ((t.entries.lookup k).map f).getD 0 = _
  induction t.entries with
  | nil => simp [setEntry]
  | cons e rest ih =>
    obtain ⟨k₁, a₁⟩ := e
    rw [lookup_entry, setEntry]
    by_cases hk : k₁ = k
    · rw [if_pos hk, if_pos hk.symm]
      simp only [List.map_cons, List.sum_cons, Option.map_some, Option.getD_some]
      rw [add_right_comm, add_comm (f a), add_right_comm]
    · rw [if_neg hk, if_neg (Ne.symm hk)]
      simp only [List.map_cons, List.sum_cons]
      rw [add_assoc, ih, add_assoc]

/-- All that is tallied is counted. -/
theorem sum_tally (l : List κ) : ((tally l).entries.map Prod.snd).sum = l.length := by
  have hfrom (t : Table κ Nat) :
      ((l.foldl (fun t k => t.set k ((t.get? k).getD 0 + 1)) t).entries.map Prod.snd).sum =
        (t.entries.map Prod.snd).sum + l.length := by
    induction l generalizing t with
    | nil => rfl
    | cons k rest ih =>
      have hset : ((t.set k ((t.get? k).getD 0 + 1)).entries.map Prod.snd).sum +
          (t.get? k).getD 0 = (t.entries.map Prod.snd).sum + ((t.get? k).getD 0 + 1) := by
        simpa using sum_set id t k ((t.get? k).getD 0 + 1)
      rw [List.foldl_cons, ih, List.length_cons]
      omega
  exact (hfrom empty).trans (Nat.zero_add _)

section Tally

variable [BEq κ] [LawfulBEq κ]

theorem get?_tally_from (l : List κ) (t : Table κ Nat) (k : κ) :
    (l.foldl (fun t k => t.set k ((t.get? k).getD 0 + 1)) t).get? k =
      if k ∈ l then some ((t.get? k).getD 0 + l.count k) else t.get? k := by
  induction l generalizing t with
  | nil => simp
  | cons k₁ rest ih =>
    rw [List.foldl_cons, ih, get?_set, List.count_cons]
    by_cases hk : k = k₁
    · subst hk
      by_cases hr : k ∈ rest
      · simp [hr]
        omega
      · simp [hr, List.count_eq_zero_of_not_mem hr]
    · simp [hk, beq_false_of_ne (Ne.symm hk)]

theorem get?_tally (l : List κ) (k : κ) :
    (tally l).get? k = if k ∈ l then some (l.count k) else none := by
  rw [tally, get?_tally_from, get?_empty]
  simp

/-- A pass over the tally of a list updates the values of its elements by their numbers. -/
theorem get?_foldl_tally (step : Table κ β → κ × Nat → Table κ β) (g : Option β → Nat → β)
    (hstep : ∀ u e, step u e = u.set e.1 (g (u.get? e.1) e.2)) (l : List κ) (u : Table κ β)
    (k : κ) :
    ((tally l).entries.foldl step u).get? k =
      if k ∈ l then some (g (u.get? k) (l.count k)) else u.get? k := by
  rw [get?_foldl_update step g hstep, get?_tally]
  by_cases hk : k ∈ l
  · rw [if_pos hk, if_pos hk]
  · rw [if_neg hk, if_neg hk]

end Tally

end Concordance.Table
