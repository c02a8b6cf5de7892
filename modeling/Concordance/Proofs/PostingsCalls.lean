import Concordance.PostingsList
import Concordance.Proofs.Postings
import Mathlib.Algebra.BigOperators.Group.List.Basic
import Mathlib.Data.Finset.Card
import Mathlib.Data.List.Induction

/-!
# Lists of postings under any calls

A list of postings is filled by additions, and is asked between them in any way. What it
replies is told by the additions before, whatever their order and wherever the set of its
documents was kept. An addition is refused only where a document would begin below one.
-/
namespace Concordance

/-- Occurrences as they are added: the document, and how many of them. -/
abbrev Occurrences := Int × Int

namespace Occurrences

def docs (added : List Occurrences) : Finset Int := (added.map Prod.fst).toFinset

def countIn (added : List Occurrences) (d : Int) : Int :=
  ((added.filter fun o => o.1 = d).map Prod.snd).sum

def total (added : List Occurrences) : Int := (added.map Prod.snd).sum

variable {added added' : List Occurrences}

theorem mem_docs_append {o : Occurrences} {d : Int} :
    d ∈ docs (added ++ [o]) ↔ d = o.1 ∨ d ∈ docs added := by
  rw [docs, docs, List.mem_toFinset, List.mem_toFinset, List.map_append, List.mem_append, or_comm]
  exact or_congr_left List.mem_singleton

theorem countIn_append (o : Occurrences) (d : Int) :
    countIn (added ++ [o]) d = countIn added d + if d = o.1 then o.2 else 0 := by
  rw [countIn, List.filter_append, List.map_append, List.sum_append, countIn]
  by_cases hd : d = o.1
  · simp [hd]
  · simp [hd, Ne.symm hd]

theorem countIn_of_not_mem {d : Int} (h : d ∉ docs added) : countIn added d = 0 := by
  have hnone : (added.filter fun o => o.1 = d) = [] := by
    rw [List.filter_eq_nil_iff]
    intro o ho hd
    refine h (List.mem_toFinset.mpr (List.mem_map.mpr ⟨o, ho, ?_⟩))
    exact of_decide_eq_true hd
  rw [countIn, hnone]
  rfl

theorem total_append (o : Occurrences) : total (added ++ [o]) = total added + o.2 := by
  simp [total]

theorem docs_eq_of_perm (h : added'.Perm added) : docs added' = docs added :=
  List.toFinset_eq_of_perm _ _ (h.map Prod.fst)

theorem countIn_eq_of_perm (h : added'.Perm added) (d : Int) : countIn added' d = countIn added d :=
  ((h.filter _).map Prod.snd).sum_eq

end Occurrences

namespace PostingsList

open Occurrences (docs countIn total)

inductive Call where
  | add (d f : Int)
  | entries
  | docs
  | docSet
  | posting (d : Int)
  | frequency (d : Int)
  | size
  | total
  deriving DecidableEq

inductive Reply where
  | done
  | entries (entries : List (Posting Int))
  | docs (ids : List Int)
  | docSet (docs : DocSet)
  | posting (q : Option (Posting Int))
  | number (n : Int)
  deriving DecidableEq

/-- What a call leaves of a list, and its reply. -/
def perform (l : PostingsList Int) : Call → PostingsList Int × Except Failure Reply
  | .add d f => ((l.add d f).1, (l.add d f).2.elim (.ok .done) .error)
  | .entries => (l, .ok (.entries l.postings.entries))
  | .docs => (l, .ok (.docs l.postings.docs))
  | .docSet => (l.docSet.2, .ok (.docSet l.docSet.1))
  | .posting d => (l, .ok (.posting (l.postings.find? d)))
  | .frequency d => (l, .ok (.number (l.postings.frequency d)))
  | .size => (l, .ok (.number l.postings.size))
  | .total => (l, .ok (.number l.postings.total))

/-- The list after calls, one after the other. -/
def run (l : PostingsList Int) (calls : List Call) : PostingsList Int :=
  calls.foldl (fun l c => (l.perform c).1) l

theorem run_append (l : PostingsList Int) (calls : List Call) (c : Call) :
    l.run (calls ++ [c]) = ((l.run calls).perform c).1 :=
  List.foldl_append

/-- What is added by calls. -/
def additions (calls : List Call) : List Occurrences :=
  calls.filterMap fun
    | .add d f => some (d, f)
    | _ => none

/-- A reply to a call is the one that is told by what was added before. -/
inductive Told (added : List Occurrences) : Call → Reply → Prop where
  | add (d f : Int) : Told added (.add d f) .done
  | entries {entries : List (Posting Int)} (increasing : entries.Pairwise fun p q => p.doc < q.doc)
      (mem : ∀ d f, ⟨d, f⟩ ∈ entries ↔ d ∈ docs added ∧ f = countIn added d) :
      Told added .entries (.entries entries)
  | docs {ids : List Int} (increasing : ids.Pairwise (· < ·))
      (mem : ∀ d, d ∈ ids ↔ d ∈ docs added) : Told added .docs (.docs ids)
  | docSet {s : DocSet} (mem : ∀ d, d ∈ s ↔ d ∈ docs added) : Told added .docSet (.docSet s)
  | posting (d : Int) :
      Told added (.posting d)
        (.posting (if d ∈ docs added then some ⟨d, countIn added d⟩ else none))
  | frequency (d : Int) : Told added (.frequency d) (.number (countIn added d))
  | size : Told added .size (.number (docs added).card)
  | total : Told added .total (.number (total added))

theorem add_eq (l : PostingsList Int) (d f : Int) :
    l.add d f = if d ∉ l.postings.docs ∧ f < 1 then (l, some (.frequencyTooLow d (decimal f)))
      else (⟨l.postings.add d f, none⟩, none) := by
  rw [add, Postings.add?_eq]
  by_cases h : d ∉ l.postings.docs ∧ f < 1
  · rw [if_pos h, if_pos h]
  · rw [if_neg h, if_neg h]

/-- A set that is kept is the one that would be made. -/
def Fresh (l : PostingsList Int) : Prop := ∀ s, l.kept = some s → s = l.postings.docSet

namespace Fresh

theorem docSet_eq {l : PostingsList Int} (h : l.Fresh) : l.docSet.1 = l.postings.docSet := by
  rw [docSet]
  cases hkept : l.kept with
  | none => rfl
  | some s => exact h s hkept

theorem perform {l : PostingsList Int} (h : l.Fresh) (c : Call) : (l.perform c).1.Fresh := by
  cases c with
  | add d f =>
    show (l.add d f).1.Fresh
    rw [add_eq]
    split
    · exact h
    · exact nofun
  | docSet =>
    show l.docSet.2.Fresh
    rw [docSet]
    cases hkept : l.kept with
    | none => exact fun s hs => (Option.some.inj hs).symm
    | some s => exact h
  | _ => exact h

end Fresh

/-- A call that adds nothing leaves the postings as they are. -/
theorem postings_perform (l : PostingsList Int) {c : Call} (h : additions [c] = []) :
    (l.perform c).1.postings = l.postings := by
  cases c with
  | add d f => contradiction
  | docSet =>
    show l.docSet.2.postings = l.postings
    rw [docSet]
    cases l.kept <;> rfl
  | _ => rfl

/-- A list is what additions make of an empty one, of which none is below one. -/
structure Reflects (added : List Occurrences) (l : PostingsList Int) : Prop where
  strict : l.postings.Strict
  fresh : l.Fresh
  found : ∀ d, l.postings.find? d = if d ∈ docs added then some ⟨d, countIn added d⟩ else none
  total : l.postings.total = total added

theorem reflects_empty : Reflects [] empty where
  strict := Postings.strict_empty
  fresh := nofun
  found _ := rfl
  total := rfl

namespace Reflects

variable {added : List Occurrences} {l : PostingsList Int}

theorem add (h : Reflects added l) {d f : Int} (hf : 1 ≤ f) :
    l.add d f = (⟨l.postings.add d f, none⟩, none) ∧
      Reflects (added ++ [(d, f)]) ⟨l.postings.add d f, none⟩ := by
  refine ⟨?_, h.strict.add d f, nofun, fun d' => ?_, ?_⟩
  · rw [add_eq, if_neg fun hlow => Int.not_lt.mpr hf hlow.2]
  · have hmem : d' ∈ docs (added ++ [(d, f)]) ↔ d' = d ∨ d' ∈ docs added :=
      Occurrences.mem_docs_append
    rw [h.strict.find?_add, h.found, h.found, Occurrences.countIn_append]
    by_cases hd : d' = d
    · subst hd
      rw [if_pos rfl, if_pos rfl, if_pos (hmem.mpr (.inl rfl))]
      by_cases hold : d' ∈ docs added
      · rw [if_pos hold]
        rfl
      · rw [if_neg hold, Occurrences.countIn_of_not_mem hold, Int.zero_add]
        rfl
    · rw [if_neg hd, if_neg hd, Int.add_zero]
      simp only [hmem, hd, false_or]
  · rw [Occurrences.total_append, ← h.total]
    exact Postings.total_add l.postings d f

theorem perform (h : Reflects added l) {c : Call} (hc : ∀ d f, c = .add d f → 1 ≤ f) :
    Reflects (added ++ additions [c]) (l.perform c).1 := by
  by_cases hread : additions [c] = []
  · rw [hread, List.append_nil]
    have hsame := l.postings_perform hread
    refine ⟨?_, h.fresh.perform c, fun d => ?_, ?_⟩
    · rw [hsame]
      exact h.strict
    · rw [hsame, h.found]
    · rw [hsame, h.total]
  · cases c with
    | add d f =>
      obtain ⟨hadd, hreflects⟩ := h.add (d := d) (hc d f rfl)
      show Reflects (added ++ [(d, f)]) (l.add d f).1
      rw [hadd]
      exact hreflects
    | _ => exact absurd rfl hread

theorem mem_docs (h : Reflects added l) {d : Int} : d ∈ l.postings.docs ↔ d ∈ docs added := by
  rw [Postings.mem_docs_iff, h.found]
  by_cases hd : d ∈ docs added
  · rw [if_pos hd]
    exact iff_of_true ⟨_, rfl⟩ hd
  · rw [if_neg hd]
    exact iff_of_false nofun hd

theorem size (h : Reflects added l) : l.postings.size = (docs added).card := by
  have hnodup : l.postings.docs.Nodup := h.strict.docs_increasing.imp fun hlt => by omega
  have hdocs : l.postings.docs.toFinset = docs added := by
    ext d
    rw [List.mem_toFinset, h.mem_docs]
  rw [← hdocs, List.toFinset_card_of_nodup hnodup, Postings.docs, List.length_map, Postings.size]

/-- Every call is answered, as the additions before it tell. -/
theorem told (h : Reflects added l) {c : Call} (hc : ∀ d f, c = .add d f → 1 ≤ f) :
    ∃ reply, (l.perform c).2 = .ok reply ∧ Told added c reply := by
  cases c with
  | add d f =>
    obtain ⟨hadd, -⟩ := h.add (d := d) (hc d f rfl)
    refine ⟨.done, ?_, .add d f⟩
    show (l.add d f).2.elim _ _ = _
    rw [hadd]
    rfl
  | entries =>
    refine ⟨_, rfl, .entries h.strict fun d f => ?_⟩
    rw [h.strict.mem_entries_iff, h.found]
    by_cases hd : d ∈ docs added
    · rw [if_pos hd, Option.some.injEq, Posting.mk.injEq]
      exact ⟨fun heq => ⟨hd, heq.2.symm⟩, fun hf => ⟨rfl, hf.2.symm⟩⟩
    · rw [if_neg hd]
      exact iff_of_false nofun fun hf => hd hf.1
  | docs => exact ⟨_, rfl, .docs h.strict.docs_increasing fun _ => h.mem_docs⟩
  | docSet =>
    refine ⟨_, rfl, .docSet fun d => ?_⟩
    rw [h.fresh.docSet_eq, Postings.mem_docSet, h.mem_docs]
  | posting d =>
    refine ⟨_, rfl, ?_⟩
    rw [h.found]
    exact .posting d
  | frequency d =>
    refine ⟨.number (countIn added d), ?_, .frequency d⟩
    show Except.ok (Reply.number (l.postings.frequency d)) = _
    rw [Postings.frequency, h.found]
    by_cases hd : d ∈ docs added
    · rw [if_pos hd]
      rfl
    · rw [if_neg hd, Occurrences.countIn_of_not_mem hd]
      rfl
  | size =>
    refine ⟨.number (docs added).card, ?_, .size⟩
    rw [← h.size]
    rfl
  | total =>
    refine ⟨.number (Occurrences.total added), ?_, .total⟩
    rw [← h.total]
    rfl

/-- The order of additions makes no difference. -/
theorem postings_eq {added' : List Occurrences} {l' : PostingsList Int} (h : Reflects added l)
    (h' : Reflects added' l') (hperm : added'.Perm added) : l'.postings = l.postings := by
  refine h'.strict.ext h.strict fun d => ?_
  rw [h'.found, h.found, Occurrences.docs_eq_of_perm hperm,
    Occurrences.countIn_eq_of_perm hperm]

end Reflects

theorem additions_append (calls : List Call) (c : Call) :
    additions (calls ++ [c]) = additions calls ++ additions [c] :=
  List.filterMap_append

theorem reflects_run {calls : List Call} (h : ∀ o ∈ additions calls, 1 ≤ o.2) :
    Reflects (additions calls) (empty.run calls) := by
  induction calls using List.reverseRecOn with
  | nil => exact reflects_empty
  | append_singleton calls c ih =>
    rw [additions_append] at h ⊢
    rw [run_append]
    obtain ⟨hcalls, hc⟩ := List.forall_mem_append.mp h
    refine (ih hcalls).perform ?_
    rintro d f rfl
    exact hc (d, f) List.mem_cons_self

/-- Whatever calls came before, each call is answered, by what the additions among them tell, and
postings are the same for additions in any order, whatever is asked between them. -/
theorem told_run {calls : List Call} (h : ∀ o ∈ additions calls, 1 ≤ o.2) :
    (∀ c, (∀ d f, c = .add d f → 1 ≤ f) →
      ∃ reply, ((empty.run calls).perform c).2 = .ok reply ∧ Told (additions calls) c reply) ∧
      ∀ calls', (additions calls').Perm (additions calls) →
        (empty.run calls').postings = (empty.run calls).postings := by
  have hreflects := reflects_run h
  refine ⟨fun c hc => hreflects.told hc, fun calls' hperm => ?_⟩
  exact hreflects.postings_eq (reflects_run fun o ho => h o (hperm.mem_iff.mp ho)) hperm

/-- The theorem at a document that comes twice and a set that is kept before the last addition. -/
theorem told_run_kept_set :
    let calls : List Call := [.add 5 2, .docSet, .add (-1) 1, .docSet, .docSet, .add 7 3, .add 5 4]
    let calls' : List Call := [.add 5 4, .add 7 3, .posting 5, .add (-1) 1, .docSet, .add 5 2]
    ((empty.run calls).perform .docSet).2 = .ok (.docSet (.ofList [-1, 5, 7])) ∧
      Told (additions calls) .docSet (.docSet (.ofList [-1, 5, 7])) ∧
      ((empty.run calls).perform (.frequency 5)).2 = .ok (.number 6) ∧
      Told (additions calls) (.frequency 5) (.number 6) ∧
      (empty.run calls').postings = (empty.run calls).postings := by
  intro calls calls'
  have h : ∀ o ∈ additions calls, 1 ≤ o.2 := by decide
  have hset : ((empty.run calls).perform .docSet).2 = .ok (.docSet (.ofList [-1, 5, 7])) := by
    decide +kernel
  have hfrequency : ((empty.run calls).perform (.frequency 5)).2 = .ok (.number 6) := by
    decide +kernel
  have hperm : (additions calls').Perm (additions calls) := by decide
  obtain ⟨htold, horder⟩ := told_run h
  obtain ⟨reply, hreply, htoldSet⟩ := htold .docSet nofun
  obtain ⟨reply', hreply', htoldFrequency⟩ := htold (.frequency 5) nofun
  rw [hset] at hreply
  rw [hfrequency] at hreply'
  cases hreply
  cases hreply'
  exact ⟨hset, htoldSet, hfrequency, htoldFrequency, horder calls' hperm⟩

end PostingsList

end Concordance
