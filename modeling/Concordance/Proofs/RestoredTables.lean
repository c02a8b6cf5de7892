import Concordance.Proofs.AddedTerms
import Concordance.Proofs.MemoryIndex
import Concordance.Proofs.Saved

/-!
# Restored tables

Each of the three tables of an index is filled by calls, some of which may be refused, and is
restored from what is written of it. A table that has been restored cannot be told from the one that
was written: it is the same at once, and all that comes of further calls is the same.
-/
namespace Concordance

section Calls

variable {σ ι : Type} {step : σ → ι → σ × Option Failure}

/-- What comes of calls, one after the other: the state to which they lead, and of each call the
failure with which it ended, if with any. A call that fails may have changed the state. -/
def runCalls (step : σ → ι → σ × Option Failure) (x : σ) : List ι → σ × List (Option Failure)
  | [] => (x, [])
  | call :: rest =>
    let after := runCalls step (step x call).1 rest
    (after.1, (step x call).2 :: after.2)

/-- What calls of a kind keep, each by itself, holds after any number of them. -/
theorem runCalls_keeps {P : σ → Prop} {Q : ι → Prop}
    (hstep : ∀ x call, Q call → P x → P (step x call).1) {calls : List ι}
    (hcalls : ∀ call ∈ calls, Q call) {x : σ} (h : P x) : P (runCalls step x calls).1 := by
  induction calls generalizing x with
  | nil => exact h
  | cons call rest ih =>
    obtain ⟨hcall, hrest⟩ := List.forall_mem_cons.mp hcalls
    exact ih hrest (hstep x call hcall h)

/-- A table is restored as it was. It is in the same state, so that all that is read of it is the
same, and further calls come to the same. -/
def RestoredAlike (restore : σ → Except Failure σ) (step : σ → ι → σ × Option Failure) (x : σ) :
    Prop :=
  ∃ y, restore x = .ok y ∧ y = x ∧ ∀ calls, runCalls step y calls = runCalls step x calls

theorem RestoredAlike.of_eq {restore : σ → Except Failure σ} {x : σ} (h : restore x = .ok x) :
    RestoredAlike restore step x :=
  ⟨x, h, rfl, fun _ => rfl⟩

end Calls

namespace InvertedIndex

/-- An addition as a call, which never fails. -/
def take (index : InvertedIndex Int) (a : Addition) : InvertedIndex Int × Option Failure :=
  (index.add a.1 a.2, none)

theorem sound_runCalls (added : List Addition) : (runCalls take empty added).1.Sound :=
  runCalls_keeps (Q := fun _ => True) (fun _ a _ hsound => hsound.add a.1 a.2)
    (fun _ _ => trivial) sound_empty

end InvertedIndex

namespace DocumentStore

variable {α : Type} {keys : IdKeys}

/-- Offering a document as a call. Where the document is refused, the store is as it was. -/
def offer (store : DocumentStore α) (d : Int × α) : DocumentStore α × Option Failure :=
  match store.add d.1 d.2 with
  | .ok store' => (store', none)
  | .error e => (store, some e)

theorem offer_cases (store : DocumentStore α) (d : Int × α) :
    (∃ e, store.offer d = (store, some e)) ∨
      store.offer d = (⟨store.contents.set d.1 d.2⟩, none) := by
  unfold offer add
  cases store.contents.contains d.1 with
  | true => exact .inl ⟨_, rfl⟩
  | false => exact .inr rfl

theorem keeps_runCalls {offers : List (Int × α)} (h : ∀ d ∈ offers, keys.Keeps d.1) :
    ∀ doc ∈ (runCalls offer (empty : DocumentStore α) offers).1.contents.keys, keys.Keeps doc := by
  refine runCalls_keeps (P := fun store : DocumentStore α => ∀ doc ∈ store.contents.keys,
    keys.Keeps doc) (fun store d hd hstore => ?_) h fun doc hdoc => absurd hdoc List.not_mem_nil
  rcases store.offer_cases d with ⟨e, hoffer⟩ | hoffer
  · rw [hoffer]
    exact hstore
  · rw [hoffer]
    exact Table.forall_mem_keys_set hstore hd d.2

end DocumentStore

namespace CollectionStatistics

variable {keys : IdKeys}

/-- Recording a length as a call. -/
def take (s : CollectionStatistics Int) (d : Int × Int) :
    CollectionStatistics Int × Option Failure :=
  s.record d.1 d.2

theorem lengths_take_cases (s : CollectionStatistics Int) (d : Int × Int) :
    (s.take d).1.lengths = s.lengths ∨ (s.take d).1.lengths = s.lengths.set d.1 d.2 := by
  cases hold : s.lengths.contains d.1 with
  | true =>
    rw [take, record, if_pos hold]
    exact .inl rfl
  | false =>
    obtain ⟨mean, failure, hrecord, -⟩ :=
      record_of_new (Table.contains_eq_false_iff.mp hold) d.2
    rw [take, hrecord]
    exact .inr rfl

theorem keeps_runCalls {records : List (Int × Int)} (h : ∀ d ∈ records, keys.Keeps d.1) :
    ∀ doc ∈ (runCalls take empty records).1.lengths.keys, keys.Keeps doc := by
  refine runCalls_keeps (P := fun s : CollectionStatistics Int => ∀ doc ∈ s.lengths.keys,
    keys.Keeps doc) (fun s d hd hs => ?_) h fun doc hdoc => absurd hdoc List.not_mem_nil
  rcases s.lengths_take_cases d with hlengths | hlengths
  · rw [hlengths]
    exact hs
  · rw [hlengths]
    exact Table.forall_mem_keys_set hs hd d.2

end CollectionStatistics

namespace Tables

/-- Whatever calls have filled them, the tables of an index are restored as they were from what is
written of them, with ids kept as numbers or in decimal. Decimal keeps no ids of more than
`maxDigits` digits, which are neither written nor read. -/
theorem restoredAlike_of_calls {α : Type} {encode : α → Json} {decode : Json → Except Failure α}
    (hcode : ∀ content, decode (encode content) = .ok content) (keys : IdKeys)
    (additions : List Addition) (offers : List (Int × α)) (records : List (Int × Int))
    (hoffers : ∀ d ∈ offers, keys.Keeps d.1) (hrecords : ∀ d ∈ records, keys.Keeps d.1) :
    RestoredAlike (fun index => InvertedIndex.ofJson index.toJson) InvertedIndex.take
        (runCalls InvertedIndex.take .empty additions).1 ∧
      RestoredAlike (fun store => DocumentStore.read keys decode (store.write keys encode))
        DocumentStore.offer (runCalls DocumentStore.offer .empty offers).1 ∧
      RestoredAlike (fun s => CollectionStatistics.read keys (s.write keys))
        CollectionStatistics.take
        (runCalls CollectionStatistics.take .empty records).1 := by
  refine ⟨.of_eq ?_, .of_eq ?_, .of_eq ?_⟩
  · exact InvertedIndex.ofJson_toJson (InvertedIndex.sound_runCalls additions)
  · refine DocumentStore.read_write hcode fun e he => ?_
    exact DocumentStore.keeps_runCalls hoffers e.1 (List.mem_map_of_mem he)
  · refine CollectionStatistics.read_write fun e he => ?_
    exact CollectionStatistics.keeps_runCalls hrecords e.1 (List.mem_map_of_mem he)

/-- The theorem at tables whose last call was refused, with ids below zero and a term without
characters, kept in decimal. -/
theorem restoredAlike_of_calls_refused :
    let additions : List Addition := [(2, [['b'], [], ['b']]), (-4, [['b']]), (2, [['a']])]
    let offers : List (Int × Text) := [(-3, ['a']), (7, []), (-3, ['b'])]
    let records : List (Int × Int) := [(5, 2), (-1, 0), (5, 9)]
    (runCalls DocumentStore.offer .empty offers).2 = [none, none, some (.documentExists (-3))] ∧
      RestoredAlike (fun index => InvertedIndex.ofJson index.toJson) InvertedIndex.take
        (runCalls InvertedIndex.take .empty additions).1 ∧
      RestoredAlike (fun store => DocumentStore.read .names Json.text (store.write .names .str))
        DocumentStore.offer (runCalls DocumentStore.offer .empty offers).1 ∧
      RestoredAlike
        (fun s => CollectionStatistics.read .names (CollectionStatistics.write .names s))
        CollectionStatistics.take (runCalls CollectionStatistics.take .empty records).1 := by
  intro additions offers records
  have hoffers : ∀ d ∈ offers, IdKeys.names.Keeps d.1 := by
    simp only [offers, List.forall_mem_cons, IdKeys.Keeps]
    decide
  have hrecords : ∀ d ∈ records, IdKeys.names.Keeps d.1 := by
    simp only [records, List.forall_mem_cons, IdKeys.Keeps]
    decide
  have hcode : ∀ content : Text, Json.text (.str content) = .ok content := fun _ => rfl
  exact ⟨by decide, restoredAlike_of_calls hcode .names additions offers records hoffers hrecords⟩

end Tables

end Concordance
