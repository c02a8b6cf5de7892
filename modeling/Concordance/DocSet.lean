/-!
# Sets of documents

A set of document ids is its strictly increasing list of elements, so that two
sets with the same elements are equal.
-/
namespace Concordance

/-- A finite set of document ids. -/
structure DocSet where
  ids : List Int
  increasing : ids.Pairwise (· < ·)
  deriving DecidableEq

namespace DocSet

/-- Puts `d` into its place in an increasing list, unless it is there. -/
def insertId (d : Int) : List Int → List Int
  | [] => [d]
  | e :: rest => if d < e then d :: e :: rest else if d = e then e :: rest else e :: insertId d rest

theorem mem_insertId {d e : Int} {ids : List Int} : e ∈ insertId d ids ↔ e = d ∨ e ∈ ids := by
  induction ids with
  | nil => simp [insertId]
  | cons f rest ih =>
    simp only [insertId]
    split
    · simp
    · split
      · next h => subst h; simp
      · simp only [List.mem_cons, ih]
        constructor <;> rintro (h | h | h) <;> simp [h]

theorem increasing_insertId (d : Int) {ids : List Int} (h : ids.Pairwise (· < ·)) :
    (insertId d ids).Pairwise (· < ·) := by
  induction ids with
  | nil => simp [insertId]
  | cons e rest ih =>
    have hr := List.pairwise_cons.1 h
    simp only [insertId]
    split
    · next hd =>
      refine List.pairwise_cons.2 ⟨fun f hf => ?_, h⟩
      rcases List.mem_cons.1 hf with rfl | hf
      · exact hd
      · exact Int.lt_trans hd (hr.1 f hf)
    · split
      · exact h
      · refine List.pairwise_cons.2 ⟨fun f hf => ?_, ih hr.2⟩
        rcases mem_insertId.1 hf with rfl | hf
        · omega
        · exact hr.1 f hf

def empty : DocSet := ⟨[], List.Pairwise.nil⟩

instance : Inhabited DocSet := ⟨empty⟩

instance : Membership Int DocSet := ⟨fun s d => d ∈ s.ids⟩

instance (d : Int) (s : DocSet) : Decidable (d ∈ s) := inferInstanceAs (Decidable (d ∈ s.ids))

theorem mem_iff {d : Int} {s : DocSet} : d ∈ s ↔ d ∈ s.ids := Iff.rfl

@[simp] theorem not_mem_empty (d : Int) : d ∉ empty := List.not_mem_nil

/-- Two sets with the same elements are equal: an increasing list is fixed by its elements. -/
theorem ext {s t : DocSet} (h : ∀ d, d ∈ s ↔ d ∈ t) : s = t := by
  obtain ⟨ids, hs⟩ := s
  obtain ⟨ids', ht⟩ := t
  simp only [mem_iff] at h
  suffices ids = ids' by subst this; rfl
  induction ids generalizing ids' with
  | nil =>
    cases ids' with
    | nil => rfl
    | cons e rest => exact absurd ((h e).2 (List.mem_cons_self)) List.not_mem_nil
  | cons d rest ih =>
    cases ids' with
    | nil => exact absurd ((h d).1 List.mem_cons_self) List.not_mem_nil
    | cons e rest' =>
      have hd := List.pairwise_cons.1 hs
      have he := List.pairwise_cons.1 ht
      have hde : d = e := by
        rcases List.mem_cons.1 ((h d).1 List.mem_cons_self) with heq | hmem
        · exact heq
        · rcases List.mem_cons.1 ((h e).2 List.mem_cons_self) with heq | hmem'
          · exact heq.symm
          · exact absurd (Int.lt_trans (hd.1 e hmem') (he.1 d hmem)) (Int.lt_irrefl d)
      subst hde
      have hrest : ∀ f, f ∈ rest ↔ f ∈ rest' := fun f => by
        constructor <;> intro hf
        · rcases List.mem_cons.1 ((h f).1 (List.mem_cons_of_mem d hf)) with heq | hmem
          · exact absurd (heq ▸ hd.1 f hf) (Int.lt_irrefl d)
          · exact hmem
        · rcases List.mem_cons.1 ((h f).2 (List.mem_cons_of_mem d hf)) with heq | hmem
          · exact absurd (heq ▸ he.1 f hf) (Int.lt_irrefl d)
          · exact hmem
      rw [ih hd.2 rest' he.2 hrest]

def insert (s : DocSet) (d : Int) : DocSet := ⟨insertId d s.ids, increasing_insertId d s.increasing⟩

def ofList (ids : List Int) : DocSet := ids.foldl insert empty

def isEmpty (s : DocSet) : Bool := s.ids.isEmpty

def inter (s t : DocSet) : DocSet := ⟨s.ids.filter (· ∈ t), s.increasing.filter _⟩

def union (s t : DocSet) : DocSet := t.ids.foldl insert s

/-- The elements of the first set that are not in the second. -/
def diff (s t : DocSet) : DocSet := ⟨s.ids.filter (· ∉ t), s.increasing.filter _⟩

@[simp] theorem mem_insert {d e : Int} {s : DocSet} : e ∈ s.insert d ↔ e = d ∨ e ∈ s :=
  mem_insertId

theorem mem_foldl_insert {e : Int} {ids : List Int} {s : DocSet} :
    e ∈ ids.foldl insert s ↔ e ∈ ids ∨ e ∈ s := by
  induction ids generalizing s with
  | nil => simp
  | cons d rest ih =>
    rw [List.foldl_cons, ih, mem_insert, List.mem_cons, or_left_comm, or_assoc]

@[simp] theorem mem_ofList {d : Int} {ids : List Int} : d ∈ ofList ids ↔ d ∈ ids := by
  rw [ofList, mem_foldl_insert]
  simp

@[simp] theorem mem_inter {d : Int} {s t : DocSet} : d ∈ s.inter t ↔ d ∈ s ∧ d ∈ t := by
  simp [inter, mem_iff]

@[simp] theorem mem_union {d : Int} {s t : DocSet} : d ∈ s.union t ↔ d ∈ s ∨ d ∈ t := by
  rw [union, mem_foldl_insert, or_comm, mem_iff, mem_iff]

@[simp] theorem mem_diff {d : Int} {s t : DocSet} : d ∈ s.diff t ↔ d ∈ s ∧ d ∉ t := by
  simp [diff, mem_iff]

/-- The elements common to `s` and to all listed sets, with the number of listed sets that were
looked at. No set is looked at once nothing is left. -/
def interAll (s : DocSet) : List DocSet → DocSet × Nat
  | [] => (s, 0)
  | t :: rest =>
    if s.isEmpty then (empty, 0)
    else
      let (common, looked) := interAll (s.inter t) rest
      (common, looked + 1)

/-- The elements common to all listed sets, none if no set is listed, with the number of sets
that were looked at. -/
def interMany : List DocSet → DocSet × Nat
  | [] => (empty, 0)
  | s :: rest =>
    let (common, looked) := s.interAll rest
    (common, looked + 1)

end DocSet

end Concordance
