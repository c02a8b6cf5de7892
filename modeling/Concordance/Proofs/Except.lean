import Mathlib.Data.List.Perm.Basic

/-!
# Lists of steps that can fail

A list of steps succeeds when every one of them does, and its results are listed in
the order of the steps.
-/
namespace Concordance

variable {α β γ ε : Type}

@[simp] theorem ok_bind (a : α) (f : α → Except ε β) : (Except.ok a >>= f) = f a := rfl

@[simp] theorem error_bind (e : ε) (f : α → Except ε β) : (Except.error e >>= f) = .error e := rfl

@[simp] theorem pure_eq_ok (a : α) : (pure a : Except ε α) = .ok a := rfl

theorem bind_eq_ok_iff {x : Except ε α} {f : α → Except ε β} {b : β} :
    (x >>= f) = .ok b ↔ ∃ a, x = .ok a ∧ f a = .ok b := by
  cases x with
  | error e => simp
  | ok a => simp

theorem map_eq_ok_iff {x : Except ε α} {f : α → β} {b : β} :
    x.map f = .ok b ↔ ∃ a, x = .ok a ∧ f a = b := by
  cases x with
  | error e => simp [Except.map]
  | ok a => simp [Except.map]

theorem elim_error_eq_ok_iff {failure : Option ε} {a b : α} :
    failure.elim (.ok a) .error = Except.ok b ↔ failure = none ∧ a = b := by
  cases failure with
  | none => simp
  | some e => simp

/-- The results of steps that all succeed. -/
theorem mapM_map_ok {f : β → Except ε γ} {g : α → β} {h : α → γ} {l : List α}
    (hl : ∀ a ∈ l, f (g a) = .ok (h a)) : (l.map g).mapM f = .ok (l.map h) := by
  induction l with
  | nil => rfl
  | cons a rest ih =>
    have hrest := ih fun b hb => hl b (List.mem_cons_of_mem a hb)
    rw [List.map_cons, List.mapM_cons, hl a List.mem_cons_self, hrest]
    rfl

/-- The steps that are taken are those for the elements of the list. -/
theorem mapM_congr {f g : β → Except ε γ} {l : List β} (h : ∀ b ∈ l, f b = g b) :
    l.mapM f = l.mapM g := by
  induction l with
  | nil => rfl
  | cons b rest ih =>
    obtain ⟨hb, hrest⟩ := List.forall_mem_cons.mp h
    rw [List.mapM_cons, List.mapM_cons, hb, ih hrest]

/-- Steps succeed together when every one of them does, with the results in their order. -/
theorem mapM_eq_ok_iff {f : β → Except ε γ} {l : List β} {r : List γ} :
    l.mapM f = .ok r ↔ List.Forall₂ (fun b c => f b = .ok c) l r := by
  induction l generalizing r with
  | nil => simp [eq_comm]
  | cons b rest ih =>
    rw [List.mapM_cons, bind_eq_ok_iff, List.forall₂_cons_left_iff]
    refine exists_congr fun c => ?_
    rw [bind_eq_ok_iff, exists_and_left]
    refine and_congr_right fun _ => exists_congr fun cs => and_congr ih ?_
    rw [pure_eq_ok, Except.ok.injEq, eq_comm]

/-- In another order the same steps succeed, with the same results in another order. -/
theorem mapM_ok_of_perm {f : β → Except ε γ} {l l' : List β} {r : List γ} (h : l'.Perm l)
    (hr : l.mapM f = .ok r) : ∃ r', l'.mapM f = .ok r' ∧ r'.Perm r := by
  obtain ⟨r', hr', hperm⟩ := List.perm_comp_forall₂ h (mapM_eq_ok_iff.mp hr)
  exact ⟨r', mapM_eq_ok_iff.mpr hr', hperm⟩

/-- Of steps that succeed together every one succeeds. -/
theorem exists_ok_of_mapM_ok {f : β → Except ε γ} {l : List β} {r : List γ}
    (h : l.mapM f = .ok r) : ∀ b ∈ l, ∃ c, f b = .ok c := by
  have hpairs := mapM_eq_ok_iff.mp h
  clear h
  induction hpairs with
  | nil => exact List.forall_mem_nil _
  | cons hc _ ih => exact List.forall_mem_cons.mpr ⟨⟨_, hc⟩, ih⟩

end Concordance
