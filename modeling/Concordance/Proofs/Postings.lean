import Concordance.Postings
import Concordance.Proofs.Except
import Concordance.Proofs.Order
import Mathlib.Algebra.Ring.Int.Defs
import Mathlib.Logic.Basic

/-!
# Postings as maps from documents to frequencies

Postings that name no document twice are read and added to like a map. They are also
read back from what is stored of them, provided that no frequency is below one.
-/
namespace Concordance

variable {α : Type}

/-- A strictly increasing list has the ids of its set. -/
theorem DocSet.ids_ofList {ids : List Int} (h : ids.Pairwise (· < ·)) :
    (DocSet.ofList ids).ids = ids := by
  have hs : DocSet.ofList ids = ⟨ids, h⟩ := DocSet.ext fun d => by
    rw [DocSet.mem_ofList]
    exact Iff.rfl
  rw [hs]

namespace Postings

/-- No document has two entries. -/
def Strict (p : Postings α) : Prop := p.entries.Pairwise fun q r => q.doc < r.doc

theorem strict_empty : (empty : Postings α).Strict := List.Pairwise.nil

theorem find?_eq_none_iff {p : Postings α} {d : Int} : p.find? d = none ↔ d ∉ p.docs := by
  rw [find?_eq, docs, List.find?_eq_none, List.mem_map]
  constructor
  · rintro h ⟨q, hq, hd⟩
    exact h q hq (by simpa using hd)
  · intro h q hq hd
    exact h ⟨q, hq, by simpa using hd⟩

theorem mem_of_find? {p : Postings α} {d : Int} {q : Posting α} (h : p.find? d = some q) :
    q ∈ p.entries :=
  List.mem_of_find?_eq_some (find?_eq p d ▸ h)

theorem mem_docSet {p : Postings α} {d : Int} : d ∈ p.docSet ↔ d ∈ p.docs := DocSet.mem_ofList

theorem mem_docs_iff {p : Postings α} {d : Int} : d ∈ p.docs ↔ ∃ q, p.find? d = some q := by
  rw [← Option.ne_none_iff_exists', Ne, find?_eq_none_iff, not_not]

namespace Strict

theorem docs_increasing {p : Postings α} (h : p.Strict) : p.docs.Pairwise (· < ·) :=
  List.pairwise_map.mpr h

theorem size_eq {p : Postings α} (h : p.Strict) : p.size = p.docSet.ids.length := by
  rw [docSet, DocSet.ids_ofList h.docs_increasing, docs, List.length_map, size]

theorem mem_entries_iff {p : Postings α} (h : p.Strict) {q : Posting α} :
    q ∈ p.entries ↔ p.find? q.doc = some q := by
  refine ⟨fun hq => ?_, mem_of_find?⟩
  rw [find?_eq, List.find?_eq_some_iff_append]
  obtain ⟨before, after, hentries⟩ := List.append_of_mem hq
  refine ⟨decide_eq_true rfl, before, after, hentries, fun r hr => ?_⟩
  rw [Strict, hentries] at h
  have hlt := (List.pairwise_append.mp h).2.2 r hr q List.mem_cons_self
  simp only [Bool.not_eq_true', decide_eq_false_iff_not]
  omega

/-- Postings without repeated documents are fixed by what is found in them. -/
theorem ext {p q : Postings α} (hp : p.Strict) (hq : q.Strict)
    (h : ∀ d, p.find? d = q.find? d) : p = q := by
  have hnodup {r : Postings α} (hr : r.Strict) : r.entries.Nodup :=
    hr.imp fun hlt heq => by rw [heq] at hlt; omega
  have hperm : p.entries.Perm q.entries := by
    refine (List.perm_ext_iff_of_nodup (hnodup hp) (hnodup hq)).mpr fun r => ?_
    rw [hp.mem_entries_iff, hq.mem_entries_iff, h]
  have hentries : p.entries = q.entries :=
    hperm.eq_of_pairwise (fun a b _ _ hab hba => by omega) hp hq
  cases p
  cases q
  cases hentries
  rfl

variable [Amount α]

theorem add {p : Postings α} (h : p.Strict) (d : Int) (f : α) : (p.add d f).Strict := by
  rw [Strict, entries_add]
  rw [Strict] at h
  generalize p.entries = entries at h ⊢
  induction entries with
  | nil => simp [addEntry]
  | cons q rest ih =>
    have hr := List.pairwise_cons.mp h
    unfold addEntry
    split
    · next hlt =>
      refine List.pairwise_cons.mpr ⟨fun r hr' => ?_, ih hr.2⟩
      rcases doc_of_mem_addEntry hr' with hd | hmem
      · omega
      · exact hr.1 r hmem
    · next hge =>
      split
      · next heq =>
        refine List.pairwise_cons.mpr ⟨fun r hr' => ?_, hr.2⟩
        have hlt := hr.1 r hr'
        show d < r.doc
        omega
      · next hne =>
        refine List.pairwise_cons.mpr ⟨fun r hr' => ?_, h⟩
        show d < r.doc
        rcases List.mem_cons.mp hr' with rfl | hmem
        · omega
        · have hlt := hr.1 r hmem
          omega

theorem find?_add {p : Postings α} (h : p.Strict) (d d' : Int) (f : α) :
    (p.add d f).find? d' =
      if d' = d then some ⟨d, ((p.find? d).map fun q => Amount.grow q.frequency f).getD f⟩
      else p.find? d' := by
  rw [find?_eq, find?_eq, find?_eq, entries_add]
  rw [Strict] at h
  generalize p.entries = entries at h ⊢
  induction entries with
  | nil =>
    by_cases hd : d' = d
    · simp [addEntry, hd]
    · simp [addEntry, hd, Ne.symm hd]
  | cons q rest ih =>
    have hr := List.pairwise_cons.mp h
    unfold addEntry
    split
    · next hlt =>
      have hq : q.doc ≠ d := by omega
      rw [List.find?_cons, ih hr.2, List.find?_cons, List.find?_cons, decide_eq_false hq]
      by_cases hd : d' = d
      · subst hd
        simp [hq]
      · simp [hd]
    · next hge =>
      split
      · next heq =>
        subst heq
        by_cases hd : d' = q.doc
        · simp [hd]
        · simp [hd, Ne.symm hd]
      · next hne =>
        have habsent : (q :: rest).find? (fun r => decide (r.doc = d)) = none := by
          rw [List.find?_eq_none]
          intro r hr'
          rcases List.mem_cons.mp hr' with rfl | hmem
          · simpa using hne
          · have hlt := hr.1 r hmem
            simp only [decide_eq_true_eq]
            omega
        rw [habsent, List.find?_cons]
        by_cases hd : d' = d
        · simp [hd]
        · simp [hd, Ne.symm hd]

theorem mem_docs_add {p : Postings α} (h : p.Strict) {d d' : Int} {f : α} :
    d' ∈ (p.add d f).docs ↔ d' = d ∨ d' ∈ p.docs := by
  rw [mem_docs_iff, h.find?_add, mem_docs_iff]
  by_cases hd : d' = d
  · simp [hd]
  · simp [hd]

end Strict

theorem Strict.frequency_add {p : Postings Int} (h : p.Strict) (d d' f : Int) :
    (p.add d f).frequency d' = p.frequency d' + if d' = d then f else 0 := by
  rw [frequency, h.find?_add, frequency]
  by_cases hd : d' = d
  · subst hd
    cases p.find? d' <;> simp
  · simp [hd]

theorem total_eq_sum (p : Postings Int) : p.total = (p.entries.map (·.frequency)).sum := by
  have hfrom (entries : List (Posting Int)) (n : Int) :
      entries.foldl (fun n q => Amount.grow n q.frequency) n =
        n + (entries.map (·.frequency)).sum := by
    induction entries generalizing n with
    | nil => exact (Int.add_zero n).symm
    | cons q rest ih =>
      rw [List.foldl_cons, ih, Amount.grow_int, List.map_cons, List.sum_cons]
      omega
  exact (hfrom p.entries 0).trans (Int.zero_add _)

/-- Occurrences are added to the total, also where the document has an entry already. -/
theorem total_add (p : Postings Int) (d f : Int) : (p.add d f).total = p.total + f := by
  rw [total_eq_sum, total_eq_sum, entries_add]
  induction p.entries with
  | nil => simp [addEntry]
  | cons q rest ih =>
    unfold addEntry
    split
    · simp only [List.map_cons, List.sum_cons, ih]
      omega
    · split
      · simp only [List.map_cons, List.sum_cons, Amount.grow_int]
        omega
      · simp only [List.map_cons, List.sum_cons]
        omega

/-- Every frequency is one that may be stored. -/
def Positive (p : Postings Int) : Prop := ∀ q ∈ p.entries, 1 ≤ q.frequency

theorem positive_empty : (empty : Postings Int).Positive := by
  intro q hq
  exact absurd hq List.not_mem_nil

theorem Positive.add {p : Postings Int} (h : p.Positive) {d f : Int} (hf : 1 ≤ f) :
    (p.add d f).Positive := by
  rw [Positive, entries_add]
  rw [Positive] at h
  generalize p.entries = entries at h ⊢
  induction entries with
  | nil => simpa [addEntry] using hf
  | cons q rest ih =>
    rw [List.forall_mem_cons] at h
    unfold addEntry
    split
    · exact List.forall_mem_cons.mpr ⟨h.1, ih h.2⟩
    · split
      · refine List.forall_mem_cons.mpr ⟨?_, h.2⟩
        have hq := h.1
        show 1 ≤ q.frequency + f
        omega
      · exact List.forall_mem_cons.mpr ⟨hf, List.forall_mem_cons.mpr h⟩

theorem Positive.frequency_pos {p : Postings Int} (h : p.Positive) {d : Int} :
    0 < p.frequency d ↔ d ∈ p.docs := by
  rw [mem_docs_iff, frequency]
  cases hf : p.find? d with
  | none => simp
  | some q =>
    have hq := h q (mem_of_find? hf)
    simp only [Option.map_some, Option.getD_some, Option.some.injEq, exists_eq', iff_true]
    omega

theorem posting_eq (d f : Int) :
    posting d f = if f < 1 then .error (.frequencyTooLow d (decimal f)) else .ok ⟨d, f⟩ := by
  have hlow : Amount.isBelowOne f = .ok (decide (f < 1)) := rfl
  rw [posting, hlow, ok_bind]
  by_cases hf : f < 1
  · rw [decide_eq_true hf, if_pos rfl, if_pos hf]
    rfl
  · rw [decide_eq_false hf, if_neg Bool.false_ne_true, if_neg hf]
    rfl

/-- Only an entry that begins below one is refused. A document that has an entry takes any number
of occurrences. -/
theorem add?_eq (p : Postings Int) (d f : Int) :
    p.add? d f =
      if d ∉ p.docs ∧ f < 1 then .error (.frequencyTooLow d (decimal f)) else .ok (p.add d f) := by
  rw [add?]
  cases hfind : p.find? d with
  | none =>
    have hnew : d ∉ p.docs := find?_eq_none_iff.mp hfind
    show (posting d f >>= fun _ => .ok (p.add d f)) = _
    rw [posting_eq]
    by_cases hf : f < 1
    · rw [if_pos hf, if_pos ⟨hnew, hf⟩, error_bind]
    · rw [if_neg hf, if_neg fun h => hf h.2, ok_bind]
  | some q =>
    have hold : d ∈ p.docs := mem_docs_iff.mpr ⟨q, hfind⟩
    rw [if_neg fun h => h.1 hold]
    rfl

theorem entryOfJson_entryJson (q : Posting Int) :
    entryOfJson (entryJson q) = posting q.doc q.frequency := rfl

/-- What is stored of postings is read entry by entry. -/
theorem ofJson_toJson_eq (p : Postings Int) :
    ofJson p.toJson = ((p.entries.map entryJson).mapM entryOfJson >>= fun entries =>
      .ok (⟨sortEntries entries, ordered_sortEntries entries⟩ : Postings Int)) := rfl

/-- Postings are read back from what is stored of them. -/
theorem ofJson_toJson {p : Postings Int} (h : p.Positive) : ofJson p.toJson = .ok p := by
  have hentries : (p.entries.map entryJson).mapM entryOfJson = .ok (p.entries.map id) := by
    refine mapM_map_ok fun q hq => ?_
    rw [entryOfJson_entryJson, posting_eq, if_neg (Int.not_lt.mpr (h q hq))]
    rfl
  have hsorted : sortEntries p.entries = p.entries :=
    sortBy_of_pairwise (p.ordered.imp fun hle => by simpa using hle)
  rw [ofJson_toJson_eq, hentries, ok_bind, List.map_id]
  simp [hsorted]

/-- What is stored of postings is refused unless every frequency is one that may be stored. -/
theorem ofJson_toJson_iff {p : Postings Int} :
    (∃ q : Postings Int, ofJson p.toJson = .ok q) ↔ p.Positive := by
  refine ⟨fun ⟨r, hr⟩ q hq => ?_, fun h => ⟨p, ofJson_toJson h⟩⟩
  rw [ofJson_toJson_eq, bind_eq_ok_iff] at hr
  obtain ⟨entries, hentries, -⟩ := hr
  obtain ⟨r, hread⟩ := exists_ok_of_mapM_ok hentries _ (List.mem_map_of_mem hq)
  rw [entryOfJson_entryJson, posting_eq] at hread
  split at hread
  · cases hread
  · omega

end Postings

end Concordance
