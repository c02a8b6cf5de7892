import Concordance.DocSet
import Concordance.Json.Amount
import Concordance.Json.Integer
import Concordance.Order

/-!
# Postings

The postings of a term say how often it occurs in each document. They are listed in
the order of the documents, so that the place of a document is found by halving. Stored
postings may name a document more than once; the first of its entries is then the one
that is read and added to. `α` is the type of frequencies.
-/
namespace Concordance

variable {α : Type}

/-- How often a term occurs in a document. -/
structure Posting (α : Type) where
  doc : Int
  frequency : α
  deriving DecidableEq

/-- The postings of a term, in the order of the documents. -/
structure Postings (α : Type) where
  entries : List (Posting α)
  ordered : entries.Pairwise fun p q => p.doc ≤ q.doc
  deriving DecidableEq

namespace Postings

/-- The place of a document among entries in order: in front of it are those of smaller ids. -/
def place (entries : List (Posting α)) (d : Int) : Nat :=
  firstPlace (fun i => entries[i]?.any fun p => p.doc < d) 0 entries.length

/-- The entry in the place of a document, if it is one of that document. -/
def entryAt? (entries : List (Posting α)) (d : Int) : Option (Posting α) :=
  entries[place entries d]?.filter fun p => p.doc = d

/-- Adds to the entry in the place of a document, or puts one in there. -/
def addInPlace [Amount α] (d : Int) (f : α) (entries : List (Posting α)) : List (Posting α) :=
  match entryAt? entries d with
  | some p => entries.set (place entries d) ⟨d, Amount.grow p.frequency f⟩
  | none => entries.insertIdx (place entries d) ⟨d, f⟩

/-- Adds to the frequency of a document, which gets an entry in its place if it has none. The
entries in front of it are passed one by one. -/
def addEntry [Amount α] (d : Int) (f : α) : List (Posting α) → List (Posting α)
  | [] => [⟨d, f⟩]
  | p :: rest =>
    if p.doc < d then p :: addEntry d f rest
    else if p.doc = d then ⟨d, Amount.grow p.frequency f⟩ :: rest
    else ⟨d, f⟩ :: p :: rest

theorem doc_of_mem_addEntry [Amount α] {d : Int} {f : α} {p : Posting α}
    {entries : List (Posting α)}
    (h : p ∈ addEntry d f entries) : p.doc = d ∨ p ∈ entries := by
  induction entries with
  | nil => simp_all [addEntry]
  | cons q rest ih =>
    simp only [addEntry] at h
    split at h
    · rcases List.mem_cons.1 h with rfl | h
      · simp
      · rcases ih h with h | h <;> simp [h]
    · split at h
      · rcases List.mem_cons.1 h with rfl | h <;> simp [*]
      · rcases List.mem_cons.1 h with rfl | h
        · simp
        · exact .inr h

theorem ordered_addEntry [Amount α] (d : Int) (f : α) {entries : List (Posting α)}
    (h : entries.Pairwise fun p q => p.doc ≤ q.doc) :
    (addEntry d f entries).Pairwise fun p q => p.doc ≤ q.doc := by
  induction entries with
  | nil => simp [addEntry]
  | cons p rest ih =>
    have hr := List.pairwise_cons.1 h
    simp only [addEntry]
    split
    · refine List.pairwise_cons.2 ⟨fun q hq => ?_, ih hr.2⟩
      rcases doc_of_mem_addEntry hq with hd | hq
      · omega
      · exact hr.1 q hq
    · split
      · next hd =>
        refine List.pairwise_cons.2 ⟨fun q hq => ?_, hr.2⟩
        have := hr.1 q hq
        simp only
        omega
      · refine List.pairwise_cons.2 ⟨fun q hq => ?_, h⟩
        simp only
        rcases List.mem_cons.1 hq with rfl | hq
        · omega
        · have := hr.1 q hq
          omega

section Place

variable {d : Int} {entries : List (Posting α)}

/-- Whether an entry is one of a smaller id holds up to some place, and not from there on. -/
theorem any_below (d : Int) (h : entries.Pairwise fun p q => p.doc ≤ q.doc) {i j : Nat}
    (hij : i ≤ j) (hj : entries[j]?.any fun p => p.doc < d) :
    entries[i]?.any fun p => p.doc < d := by
  rcases Nat.lt_or_ge j entries.length with hlength | hlength
  · rw [List.getElem?_eq_getElem hlength, Option.any_some, decide_eq_true_eq] at hj
    rw [List.getElem?_eq_getElem (by omega), Option.any_some, decide_eq_true_eq]
    rcases Nat.eq_or_lt_of_le hij with rfl | hlt
    · exact hj
    · have hle := List.pairwise_iff_getElem.1 h i j (by omega) hlength hlt
      omega
  · rw [List.getElem?_eq_none hlength] at hj
    cases hj

/-- Entries in order are cut at the place of a document into those of smaller ids and the others. -/
theorem exists_cut (d : Int) (h : entries.Pairwise fun p q => p.doc ≤ q.doc) :
    ∃ before after, entries = before ++ after ∧ place entries d = before.length ∧
      (∀ p ∈ before, p.doc < d) ∧ ∀ p ∈ after, d ≤ p.doc := by
  obtain ⟨-, hle, hbefore, hbehind⟩ :=
    firstPlace_spec (fun i j hij => any_below d h hij) (Nat.zero_le entries.length)
  change place entries d ≤ entries.length at hle
  refine ⟨entries.take (place entries d), entries.drop (place entries d),
    (List.take_append_drop _ _).symm, (List.length_take_of_le hle).symm, fun p hp => ?_,
    fun p hp => ?_⟩
  · obtain ⟨i, hi, rfl⟩ := List.mem_take_iff_getElem.1 hp
    have hany := hbefore i (Nat.zero_le i) (by change i < place entries d; omega)
    rw [List.getElem?_eq_getElem (by omega)] at hany
    simpa using hany
  · obtain ⟨i, hi, rfl⟩ := List.mem_drop_iff_getElem.1 hp
    have hany := hbehind (place entries d + i) (Nat.le_add_right _ i) (by omega)
    rw [List.getElem?_eq_getElem (by omega)] at hany
    simpa using hany

theorem insertIdx_append (before after : List (Posting α)) (p : Posting α) :
    (before ++ after).insertIdx before.length p = before ++ p :: after := by
  induction before with
  | nil => rfl
  | cons q before ih =>
    rw [List.cons_append, List.length_cons, List.insertIdx_succ_cons, ih, List.cons_append]

theorem addEntry_append [Amount α] {f : α} {before : List (Posting α)}
    (h : ∀ p ∈ before, p.doc < d) (after : List (Posting α)) :
    addEntry d f (before ++ after) = before ++ addEntry d f after := by
  induction before with
  | nil => rfl
  | cons p before ih =>
    obtain ⟨hp, hbefore⟩ := List.forall_mem_cons.1 h
    rw [List.cons_append, addEntry, if_pos hp, ih hbefore, List.cons_append]

/-- The entry in the place of a document is the first one of that document. -/
theorem entryAt?_eq (h : entries.Pairwise fun p q => p.doc ≤ q.doc) :
    entryAt? entries d = entries.find? fun p => p.doc = d := by
  obtain ⟨before, after, rfl, hplace, hbefore, hafter⟩ := exists_cut d h
  have hnone : before.find? (fun p => p.doc = d) = none := by
    rw [List.find?_eq_none]
    intro p hp
    have hlt := hbefore p hp
    simp only [decide_eq_true_eq]
    omega
  rw [entryAt?, hplace, List.getElem?_append_right (Nat.le_refl _), Nat.sub_self,
    List.find?_append, hnone, Option.none_or]
  cases after with
  | nil => rfl
  | cons q rest =>
    rw [List.getElem?_cons_zero, List.find?_cons, Option.filter_some]
    by_cases hq : q.doc = d
    · rw [decide_eq_true hq, if_pos rfl]
    · rw [decide_eq_false hq, if_neg Bool.false_ne_true]
      symm
      rw [List.find?_eq_none]
      intro p hp
      have hle := hafter q List.mem_cons_self
      have hqp := (List.pairwise_cons.1 (List.pairwise_append.1 h).2.1).1 p hp
      simp only [decide_eq_true_eq]
      omega

/-- It makes no difference whether the place of a document is found by halving. -/
theorem addInPlace_eq [Amount α] (f : α) (h : entries.Pairwise fun p q => p.doc ≤ q.doc) :
    addInPlace d f entries = addEntry d f entries := by
  obtain ⟨before, after, rfl, hplace, hbefore, hafter⟩ := exists_cut d h
  rw [addEntry_append hbefore, addInPlace, entryAt?, hplace,
    List.getElem?_append_right (Nat.le_refl _), Nat.sub_self]
  cases after with
  | nil => exact insertIdx_append before [] ⟨d, f⟩
  | cons q rest =>
    have hle := hafter q List.mem_cons_self
    rw [List.getElem?_cons_zero, Option.filter_some, addEntry, if_neg (Int.not_lt.mpr hle)]
    by_cases hq : q.doc = d
    · rw [decide_eq_true hq, if_pos rfl, if_pos hq]
      show (before ++ q :: rest).set before.length _ = _
      rw [List.set_append_right _ _ (Nat.le_refl _), Nat.sub_self, List.set_cons_zero]
    · rw [decide_eq_false hq, if_neg Bool.false_ne_true, if_neg hq]
      exact insertIdx_append before (q :: rest) ⟨d, f⟩

end Place

def empty : Postings α := ⟨[], List.Pairwise.nil⟩

instance : Inhabited (Postings α) := ⟨empty⟩

def add [Amount α] (p : Postings α) (d : Int) (f : α) : Postings α :=
  ⟨addInPlace d f p.entries, addInPlace_eq f p.ordered ▸ ordered_addEntry d f p.ordered⟩

theorem entries_add [Amount α] (p : Postings α) (d : Int) (f : α) :
    (p.add d f).entries = addEntry d f p.entries := addInPlace_eq f p.ordered

def find? (p : Postings α) (d : Int) : Option (Posting α) := entryAt? p.entries d

theorem find?_eq (p : Postings α) (d : Int) : p.find? d = p.entries.find? fun q => q.doc = d :=
  entryAt?_eq p.ordered

/-- A posting, the frequency of which may not be below one. -/
def posting [Amount α] (d : Int) (f : α) : Except Failure (Posting α) := do
  if ← Amount.isBelowOne f then .error (.frequencyTooLow d (Amount.shown f)) else return ⟨d, f⟩

/-- Adds `f` occurrences in the document `d`, whose entry may not begin below one. -/
def add? [Amount α] (p : Postings α) (d : Int) (f : α) : Except Failure (Postings α) := do
  match p.find? d with
  | some q => let _ ← Amount.plus q.frequency f
  | none => let _ ← posting d f
  return p.add d f

def docs (p : Postings α) : List Int := p.entries.map (·.doc)

def docSet (p : Postings α) : DocSet := .ofList p.docs

def frequency [Amount α] (p : Postings α) (d : Int) : α :=
  ((p.find? d).map (·.frequency)).getD (Amount.whole 0)

/-- The entry of the document with a given id, which may be any number. Where there are entries, an
id that is no number cannot be compared with theirs. -/
def findBy (p : Postings α) (id : Json) : Except Failure (Option (Posting α)) := do
  if p.entries.isEmpty then return none
  else
    let _ ← id.test (fun _ => true) (fun _ => true)
    return (← id.toKey).bind p.find?

def size (p : Postings α) : Nat := p.entries.length

def total [Amount α] (p : Postings α) : α :=
  p.entries.foldl (fun n q => Amount.grow n q.frequency) (Amount.whole 0)

def entryJson [Amount α] (p : Posting α) : Json :=
  .obj [("doc_id".toText, .int p.doc), ("term_freq".toText, Amount.toJson p.frequency)]

def toJson [Amount α] (p : Postings α) : Json :=
  .obj [("postings".toText, .arr (p.entries.map entryJson)), ("df".toText, .int p.size),
    ("total_tf".toText, Amount.toJson p.total)]

def entryOfJson [Amount α] (j : Json) : Except Failure (Posting α) := do
  let d ← (← j.field "doc_id".toText).toInteger
  posting d (← Amount.ofJson (← j.field "term_freq".toText))

def sortEntries (entries : List (Posting α)) : List (Posting α) :=
  sortBy (fun p q => p.doc ≤ q.doc) entries

theorem ordered_sortEntries (entries : List (Posting α)) :
    (sortEntries entries).Pairwise fun p q => p.doc ≤ q.doc := by
  have h := @pairwise_sortBy (Posting α) (fun p q => decide (p.doc ≤ q.doc))
    (fun a b c hab hbc => by simp only [decide_eq_true_eq] at *; omega)
    (fun a b => by simp only [decide_eq_true_eq]; omega) entries
  exact h.imp fun hab => by simpa using hab

/-- The postings that are stored as a value; what is stored beside the entries is not read. -/
def ofJson [Amount α] (j : Json) : Except Failure (Postings α) := do
  let entries ← (← (← j.field "postings".toText).elements).mapM entryOfJson
  return ⟨sortEntries entries, ordered_sortEntries entries⟩

end Postings

end Concordance
