import Concordance.Proofs.PostingsCalls

/-!
# Frequencies below one

No entry of a list of postings begins below one. An entry that is there takes any number of
occurrences, and may sink below one by them. What is stored of the list is then refused when
it is read back.
-/
namespace Concordance

namespace Postings

theorem Strict.positive_iff {p : Postings Int} (h : p.Strict) :
    p.Positive ↔ ∀ d q, p.find? d = some q → 1 ≤ q.frequency := by
  constructor
  · intro hpositive d q hq
    exact hpositive q (mem_of_find? hq)
  · intro hfound q hq
    exact hfound q.doc q (h.mem_entries_iff.mp hq)

/-- An addition keeps frequencies from one on exactly if the one that it changes is from one on. -/
theorem Strict.positive_add_iff {p : Postings Int} (h : p.Strict) (hpositive : p.Positive)
    (d f : Int) :
    (p.add d f).Positive ↔ 1 ≤ ((p.find? d).map fun q => q.frequency + f).getD f := by
  rw [(h.add d f).positive_iff]
  constructor
  · intro hfound
    refine hfound d ⟨d, _⟩ ?_
    rw [h.find?_add, if_pos rfl]
    rfl
  · intro hadded d' q hq
    rw [h.find?_add] at hq
    split at hq
    · cases hq
      exact hadded
    · exact h.positive_iff.mp hpositive d' q hq

end Postings

namespace PostingsList

variable {l : PostingsList Int}

theorem strict_perform (h : l.postings.Strict) (c : Call) : (l.perform c).1.postings.Strict := by
  by_cases hread : additions [c] = []
  · rw [l.postings_perform hread]
    exact h
  · cases c with
    | add d f =>
      show (l.add d f).1.postings.Strict
      rw [add_eq]
      split
      · exact h
      · exact h.add d f
    | _ => exact absurd rfl hread

theorem strict_run (calls : List Call) : (empty.run calls).postings.Strict := by
  induction calls using List.reverseRecOn with
  | nil => exact Postings.strict_empty
  | append_singleton calls c ih =>
    rw [run_append]
    exact strict_perform ih c

/-- An addition to a document that has an entry, which it brings below one. -/
def Sinks (l : PostingsList Int) (c : Call) : Prop :=
  ∃ d f q, c = .add d f ∧ l.postings.find? d = some q ∧ q.frequency + f < 1

/-- None of some calls brings an entry below one where it is made. -/
def NeverSinks (calls : List Call) : Prop :=
  ∀ before c after, calls = before ++ c :: after → ¬(empty.run before).Sinks c

/-- An addition that would let an entry begin below one is refused, and the list stays as it is; any
other one leaves all entries from one on. -/
def Guards (l : PostingsList Int) (d f : Int) : Prop :=
  l.perform (.add d f) = (l, .error (.frequencyTooLow d (decimal f))) ∨
    (l.perform (.add d f)).2 = .ok .done ∧ (l.perform (.add d f)).1.postings.Positive

/-- What is stored of a list is read back as the list, but for a set that was kept. -/
def Restores (l : PostingsList Int) : Prop :=
  ofJson l.postings.toJson = .ok ⟨l.postings, none⟩

theorem perform_add (l : PostingsList Int) (d f : Int) :
    l.perform (.add d f) =
      if d ∉ l.postings.docs ∧ f < 1 then (l, .error (.frequencyTooLow d (decimal f)))
      else (⟨l.postings.add d f, none⟩, .ok .done) := by
  show ((l.add d f).1, (l.add d f).2.elim _ _) = _
  rw [add_eq]
  by_cases h : d ∉ l.postings.docs ∧ f < 1
  · rw [if_pos h, if_pos h]
    rfl
  · rw [if_neg h, if_neg h]
    rfl

/-- Entries stay from one on through a call exactly if it brings none below one. -/
theorem positive_perform_iff (h : l.postings.Strict) (hpositive : l.postings.Positive) (c : Call) :
    (l.perform c).1.postings.Positive ↔ ¬l.Sinks c := by
  by_cases hread : additions [c] = []
  · rw [l.postings_perform hread]
    refine iff_of_true hpositive ?_
    rintro ⟨d, f, q, rfl, -, -⟩
    contradiction
  · cases c with
    | add d f =>
      rw [perform_add]
      split
      · next hlow =>
        refine iff_of_true hpositive ?_
        rintro ⟨d', f', q, hc, hq, -⟩
        cases hc
        exact hlow.1 (Postings.mem_docs_iff.mpr ⟨q, hq⟩)
      · next hlow =>
        rw [h.positive_add_iff hpositive]
        cases hfound : l.postings.find? d with
        | none =>
          have hnew : d ∉ l.postings.docs := Postings.find?_eq_none_iff.mp hfound
          have hf : 1 ≤ f := Int.not_lt.mp fun hf => hlow ⟨hnew, hf⟩
          refine iff_of_true hf ?_
          rintro ⟨d', f', q, hc, hq, -⟩
          cases hc
          rw [hfound] at hq
          cases hq
        | some q =>
          show 1 ≤ q.frequency + f ↔ _
          constructor
          · rintro hsum ⟨d', f', q', hc, hq, hlt⟩
            cases hc
            rw [hfound] at hq
            cases hq
            omega
          · intro hsinks
            exact Int.not_lt.mp fun hlt => hsinks ⟨d, f, q, rfl, hfound, hlt⟩
    | _ => exact absurd rfl hread

theorem restores_iff : l.Restores ↔ l.postings.Positive := by
  rw [Restores, ofJson, ← Postings.ofJson_toJson_iff]
  constructor
  · intro h
    obtain ⟨p, hp, -⟩ := bind_eq_ok_iff.mp h
    exact ⟨p, hp⟩
  · intro h
    rw [Postings.ofJson_toJson (Postings.ofJson_toJson_iff.mp h)]
    rfl

theorem NeverSinks.of_append {calls more : List Call} (h : NeverSinks (calls ++ more)) :
    NeverSinks calls := by
  rintro before c after rfl
  exact h before c (after ++ more) (List.append_assoc _ _ _)

theorem NeverSinks.positive {calls : List Call} (h : NeverSinks calls) :
    (empty.run calls).postings.Positive := by
  induction calls using List.reverseRecOn with
  | nil => exact Postings.positive_empty
  | append_singleton calls c ih =>
    rw [run_append, positive_perform_iff (strict_run calls) (ih h.of_append)]
    exact h calls c [] rfl

theorem neverSinks_iff_positive {calls : List Call} :
    NeverSinks calls ↔ ∀ before, before <+: calls → (empty.run before).postings.Positive := by
  constructor
  · rintro h before ⟨after, rfl⟩
    exact h.of_append.positive
  · intro h before c after hcalls
    have hbefore : before <+: calls := ⟨c :: after, hcalls.symm⟩
    have hbehind : before ++ [c] <+: calls := ⟨after, by rw [hcalls, List.append_assoc]; rfl⟩
    rw [← positive_perform_iff (strict_run before) (h before hbefore), ← run_append]
    exact h (before ++ [c]) hbehind

/-- An addition that brings an entry below one is made like any other. -/
theorem Sinks.perform_add {d f : Int} (h : l.Sinks (.add d f)) :
    l.perform (.add d f) = (⟨l.postings.add d f, none⟩, .ok .done) := by
  obtain ⟨d', f', q, hc, hq, -⟩ := h
  cases hc
  rw [PostingsList.perform_add, if_neg fun hlow => hlow.1 (Postings.mem_docs_iff.mpr ⟨q, hq⟩)]

theorem Sinks.not_guards {d f : Int} (hstrict : l.postings.Strict) (h : l.Sinks (.add d f)) :
    ¬l.Guards d f := by
  rw [Guards, h.perform_add]
  rintro (hrefused | ⟨-, hpositive⟩)
  · cases congrArg Prod.snd hrefused
  · obtain ⟨d', f', q, hc, hq, hlt⟩ := h
    cases hc
    have hfound : (l.postings.add d f).find? d = some ⟨d, q.frequency + f⟩ := by
      rw [hstrict.find?_add, if_pos rfl, hq]
      rfl
    have hle := (hstrict.add d f).positive_iff.mp hpositive d _ hfound
    exact Int.not_lt.mpr hle hlt

/-- Frequencies below one come of additions that bring an entry below one, and of these only. As
long as there is none, each addition is refused or leaves all entries from one on, and the list can
be restored at any time. After one of them, neither is so. -/
theorem neverSinks_iff (calls : List Call) :
    (NeverSinks calls ↔ ∀ before d f after, calls = before ++ .add d f :: after →
        (empty.run before).Guards d f) ∧
      (NeverSinks calls ↔ ∀ before, before <+: calls → (empty.run before).Restores) := by
  constructor
  · constructor
    · rintro h before d f after rfl
      rw [Guards, perform_add]
      split
      · exact .inl rfl
      · next hlow =>
        have hpositive := (positive_perform_iff (strict_run before) h.of_append.positive _).mpr
          (h before (.add d f) after rfl)
        rw [perform_add, if_neg hlow] at hpositive
        exact .inr ⟨rfl, hpositive⟩
    · rintro h before c after hcalls hsinks
      obtain ⟨d, f, -, rfl, -⟩ := id hsinks
      exact hsinks.not_guards (strict_run before) (h before d f after hcalls)
  · rw [neverSinks_iff_positive]
    exact forall_congr' fun before => imp_congr_right fun _ => restores_iff.symm

/-- One occurrence that is taken from an entry of one is taken, and what is stored then is no list
of postings any more. -/
theorem sinking_is_not_refused :
    let l := empty.run [.add 1 1]
    (l.perform (.add 1 (-1))).2 = .ok .done ∧
      (l.perform (.add 1 (-1))).1.postings.frequency 1 = 0 ∧
      ¬l.Guards 1 (-1) ∧
      (ofJson (l.perform (.add 1 (-1))).1.postings.toJson : Except Failure (PostingsList Int)) =
        .error (.frequencyTooLow 1 (decimal 0)) := by
  intro l
  have hsinks : l.Sinks (.add 1 (-1)) := ⟨1, -1, ⟨1, 1⟩, rfl, by decide +kernel, by decide⟩
  refine ⟨?_, ?_, hsinks.not_guards (strict_run [.add 1 1]), ?_⟩
  · rw [hsinks.perform_add]
  · decide +kernel
  · decide +kernel

end PostingsList

end Concordance
