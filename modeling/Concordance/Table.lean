/-!
# Tables

A table gives values to finitely many keys. It lists each key once, in the order
in which the keys came in; giving a key another value leaves it in its place.
-/
namespace Concordance

variable {κ α β : Type}

/-- A finite table with keys in `κ` and values in `α`. -/
structure Table (κ α : Type) where
  entries : List (κ × α)
  distinct : (entries.map Prod.fst).Nodup

namespace Table

/-- The entries after a key has been given a value. -/
def setEntry [DecidableEq κ] (k : κ) (a : α) : List (κ × α) → List (κ × α)
  | [] => [(k, a)]
  | (k', a') :: rest => if k' = k then (k, a) :: rest else (k', a') :: setEntry k a rest

theorem mem_keys_setEntry [DecidableEq κ] {k k' : κ} {a : α} {entries : List (κ × α)} :
    k' ∈ (setEntry k a entries).map Prod.fst ↔ k' = k ∨ k' ∈ entries.map Prod.fst := by
  induction entries with
  | nil => simp [setEntry]
  | cons e rest ih =>
    obtain ⟨k₁, a₁⟩ := e
    by_cases h : k₁ = k
    · simp [setEntry, h]
    · simp only [setEntry, h, if_false, List.map_cons, List.mem_cons, ih]
      constructor
      · rintro (h | h | h) <;> simp [h]
      · rintro (h | h | h) <;> simp [h]

theorem nodup_setEntry [DecidableEq κ] (k : κ) (a : α) {entries : List (κ × α)}
    (h : (entries.map Prod.fst).Nodup) : ((setEntry k a entries).map Prod.fst).Nodup := by
  induction entries with
  | nil => simp [setEntry]
  | cons e rest ih =>
    obtain ⟨k₁, a₁⟩ := e
    simp only [List.map_cons, List.nodup_cons] at h
    by_cases hk : k₁ = k
    · subst hk
      simpa [setEntry] using h
    · simp only [setEntry, hk, if_false, List.map_cons, List.nodup_cons, mem_keys_setEntry]
      exact ⟨fun hm => hm.elim id h.1, ih h.2⟩

def empty : Table κ α := ⟨[], List.nodup_nil⟩

instance : Inhabited (Table κ α) := ⟨empty⟩

def get? [DecidableEq κ] (t : Table κ α) (k : κ) : Option α := t.entries.lookup k

def contains [DecidableEq κ] (t : Table κ α) (k : κ) : Bool := (t.get? k).isSome

/-- The table with a value for a key, in place of the one it may have. -/
def set [DecidableEq κ] (t : Table κ α) (k : κ) (a : α) : Table κ α :=
  ⟨setEntry k a t.entries, nodup_setEntry k a t.distinct⟩

theorem lookup_entry [DecidableEq κ] (k k' : κ) (a : α) (rest : List (κ × α)) :
    ((k, a) :: rest).lookup k' = if k' = k then some a else rest.lookup k' := by
  by_cases h : k' = k
  · simp [h]
  · rw [List.lookup_cons, beq_false_of_ne h, if_neg h]

theorem lookup_setEntry [DecidableEq κ] (k k' : κ) (a : α) (entries : List (κ × α)) :
    (setEntry k a entries).lookup k' = if k' = k then some a else entries.lookup k' := by
  induction entries with
  | nil => exact lookup_entry k k' a []
  | cons e rest ih =>
    obtain ⟨k₁, a₁⟩ := e
    by_cases h₁ : k₁ = k
    · subst h₁
      simp only [setEntry, if_true, lookup_entry]
      split <;> rfl
    · simp only [setEntry, h₁, if_false, lookup_entry, ih]
      by_cases h : k' = k₁
      · subst h
        simp [h₁]
      · simp [h]

@[simp] theorem get?_empty [DecidableEq κ] (k : κ) : (empty : Table κ α).get? k = none := rfl

/-- A key has the value that it was given last. -/
theorem get?_set [DecidableEq κ] (t : Table κ α) (k k' : κ) (a : α) :
    (t.set k a).get? k' = if k' = k then some a else t.get? k' :=
  lookup_setEntry k k' a t.entries

@[simp] theorem get?_set_self [DecidableEq κ] (t : Table κ α) (k : κ) (a : α) :
    (t.set k a).get? k = some a := by
  rw [get?_set, if_pos rfl]

theorem get?_set_of_ne [DecidableEq κ] (t : Table κ α) {k k' : κ} (a : α) (h : k' ≠ k) :
    (t.set k a).get? k' = t.get? k' := by
  rw [get?_set, if_neg h]

def keys (t : Table κ α) : List κ := t.entries.map Prod.fst

@[simp] theorem keys_empty : (empty : Table κ α).keys = [] := rfl

theorem mem_keys_set [DecidableEq κ] {t : Table κ α} {k k' : κ} {a : α} :
    k' ∈ (t.set k a).keys ↔ k' = k ∨ k' ∈ t.keys := mem_keys_setEntry

theorem mem_keys [DecidableEq κ] {t : Table κ α} {k : κ} : k ∈ t.keys ↔ (t.get? k).isSome := by
  unfold keys get?
  induction t.entries with
  | nil => simp
  | cons e rest ih =>
    obtain ⟨k₁, a₁⟩ := e
    rw [List.map_cons, List.mem_cons, ih, lookup_entry]
    by_cases h : k = k₁ <;> simp [h]

def size (t : Table κ α) : Nat := t.entries.length

def filterKeys (p : κ → Bool) (t : Table κ α) : Table κ α :=
  ⟨t.entries.filter fun e => p e.1, t.distinct.sublist (List.filter_sublist.map Prod.fst)⟩

/-- The table in which the listed entries are set one after the other. -/
def ofList [DecidableEq κ] (entries : List (κ × α)) : Table κ α :=
  entries.foldl (fun t e => t.set e.1 e.2) empty

/-- How often each element occurs in a list, in the order of the first occurrences. -/
def tally [DecidableEq κ] (l : List κ) : Table κ Nat :=
  l.foldl (fun t k => t.set k ((t.get? k).getD 0 + 1)) empty

end Table

end Concordance
