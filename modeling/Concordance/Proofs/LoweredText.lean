import Concordance.Proofs.Case
import Mathlib.Data.Nat.ModEq

/-!
# A text in lower case stays as it is

To put a text in lower case brings out characters that lower case leaves alone, also when
they stand in another text: no run of the table of letter case leads to a character of a
run, and the final sigma is chosen only for a capital.
-/
namespace Concordance

/-- A character is its own form in lower case, wherever it stands. -/
def IsLowered (c : CodePoint) : Prop := ∀ before after, lowerBetween before after c = [c]

theorem lowerFrom_eq_self {t : Text} (h : ∀ c ∈ t, IsLowered c) (before : Text) :
    lowerFrom before t = t := by
  induction t generalizing before with
  | nil => rfl
  | cons c rest ih =>
    obtain ⟨hc, hrest⟩ := List.forall_mem_cons.mp h
    rw [lowerFrom, hc, ih hrest, List.singleton_append]

namespace CaseRun

/-- No character to which `run` leads is in `run'`: their ranges are apart, or both run in equal
steps, but not through the same characters. -/
def leadsPast (run run' : CaseRun) : Bool :=
  -- The whole table is checked pair by pair, so the comparisons are those that evaluate at once.
  run.image.2.blt run'.first || run'.last.blt run.image.1 ||
    (run.step.beq run'.step || run.first.beq run.last) &&
      !(run.image.1 % run'.step).beq (run'.first % run'.step)

variable {run run' : CaseRun} {n : Nat}

theorem modEq_of_covers (h : run.covers n = true) : run.first ≡ n [MOD run.step] := by
  simp only [covers, Bool.and_eq_true, decide_eq_true_eq, beq_iff_eq] at h
  exact (Nat.modEq_iff_dvd' h.1.1).mpr (Nat.dvd_of_mod_eq_zero h.2)

theorem not_covers_of_leadsPast (h : run.leadsPast run' = true) (hstart : 0 ≤ run.first + run.shift)
    (hn : run.covers n = true) : run'.covers (n + run.shift).toNat = false := by
  obtain ⟨hfirst, hlast⟩ := range_of_covers hn
  have hshifted : (n + run.shift).toNat = run.image.1 + (n - run.first) := by
    simp only [image]
    omega
  rw [Bool.eq_false_iff]
  intro hcovers
  obtain ⟨hfirst', hlast'⟩ := range_of_covers hcovers
  simp only [leadsPast, Bool.or_eq_true, Bool.and_eq_true, Bool.not_eq_true', Nat.blt_eq] at h
  obtain (hpast | hpast) | ⟨hstep, hmod⟩ := h
  · simp only [image] at hpast
    omega
  · simp only [image] at hpast
    omega
  · -- The steps are equal, or the run has one character, so a common one would fix the remainder.
    have hdvd : run'.step ∣ n - run.first := by
      obtain hstep | hsingle := hstep
      · rw [← Nat.eq_of_beq_eq_true hstep]
        exact (Nat.modEq_iff_dvd' hfirst).mp (modEq_of_covers hn)
      · have hone := Nat.eq_of_beq_eq_true hsingle
        rw [show n - run.first = 0 by omega]
        exact Nat.dvd_zero _
    have hsame : run'.first ≡ run.image.1 [MOD run'.step] :=
      calc run'.first ≡ (n + run.shift).toNat [MOD run'.step] := modEq_of_covers hcovers
        _ = run.image.1 + (n - run.first) := hshifted
        _ ≡ run.image.1 + 0 [MOD run'.step] :=
          Nat.ModEq.add_left _ (Nat.modEq_zero_iff_dvd.mpr hdvd)
    exact Nat.ne_of_beq_eq_false hmod hsame.symm

end CaseRun

/-- Every run leads to characters past all runs, and none of them is the capital I with dot. -/
theorem lowerRuns_lead_past :
    (lowerRuns.all fun run => lowerRuns.all run.leadsPast) = true ∧
      (lowerRuns.all fun run => 0 ≤ run.first + run.shift) = true ∧
      areApart [(0x130, 0x130)] ((0, 0) :: lowerRuns.map CaseRun.image) = true := by
  decide +kernel

section Characters

variable {c : CodePoint}

theorem not_covers_shifted {run run' : CaseRun} {n : Nat} (hrun : run ∈ lowerRuns)
    (hrun' : run' ∈ lowerRuns) (hn : run.covers n = true) :
    run'.covers (n + run.shift).toNat = false := by
  obtain ⟨hpast, hstart, -⟩ := lowerRuns_lead_past
  refine CaseRun.not_covers_of_leadsPast (List.all_eq_true.mp (List.all_eq_true.mp hpast run hrun)
    run' hrun') ?_ hn
  exact of_decide_eq_true (List.all_eq_true.mp hstart run hrun)

theorem toLower_lt (h : c.toNat < 128) : c.toLower.toNat < 128 := by
  rw [CodePoint.toNat_toLower]
  split <;> omega

theorem lowerChar_lowerChar (c : CodePoint) : lowerChar (lowerChar c) = lowerChar c := by
  have hcapital := not_capital_lowerChar c
  by_cases hascii : (lowerChar c).toNat < 128
  · exact lowerChar_of_ascii hascii hcapital
  · by_cases hc : c.toNat < 128
    · rw [lowerChar, if_pos hc] at hascii
      exact absurd (toLower_lt hc) hascii
    · cases hfind : lowerRuns.find? (·.covers c.toNat) with
      | none =>
        have hself : lowerChar c = c := by rw [lowerChar, if_neg hc, hfind]
        rw [hself, hself]
      | some run =>
        have hlowered : lowerChar c = CodePoint.ofNat (c.toNat + run.shift).toNat := by
          rw [lowerChar, if_neg hc, hfind]
        have hcode : (lowerChar c).toNat = (c.toNat + run.shift).toNat := by
          rw [hlowered] at hascii ⊢
          exact (CodePoint.toNat_ofNat _).resolve_right fun hzero => hascii (by omega)
        have hnone : lowerRuns.find? (·.covers (lowerChar c).toNat) = none := by
          refine List.find?_eq_none.mpr fun run' hrun' => ?_
          rw [hcode, Bool.not_eq_true]
          exact not_covers_shifted (List.mem_of_find?_eq_some hfind) hrun'
            (List.find?_some (p := fun run : CaseRun => run.covers c.toNat) hfind)
        rw [lowerChar, if_neg hascii, hnone]

theorem isLowered_of_lowerChar (hdot : c ≠ '\u0130') (hsigma : c ≠ '\u03A3')
    (h : lowerChar c = c) : IsLowered c := by
  intro before after
  rw [lowerBetween, if_neg hdot, if_neg hsigma, h]

/-- No character but the capital I with dot itself becomes one, and that is put in lower case in
another way. -/
theorem lowerChar_ne_dotted (h : c ≠ '\u0130') : lowerChar c ≠ '\u0130' := by
  by_cases hascii : c.toNat < 128
  · rw [lowerChar, if_pos hascii]
    intro heq
    have hlt := toLower_lt hascii
    rw [heq] at hlt
    contradiction
  · obtain ⟨-, -, hapart⟩ := lowerRuns_lead_past
    have hother : inRanges [(0x130, 0x130)] c = false := by
      rw [Bool.eq_false_iff]
      intro hin
      obtain ⟨r, hr, hrange⟩ := inRanges_iff.mp hin
      obtain rfl := List.mem_singleton.mp hr
      exact h (CodePoint.toNat_inj.mp (Nat.le_antisymm hrange.2 hrange.1))
    have hlowered := inRanges_lowerChar hapart hascii hother
    intro heq
    rw [heq] at hlowered
    contradiction

theorem isLowered_of_mem_lowerBetween {before after : Text} {c' : CodePoint}
    (h : c' ∈ lowerBetween before after c) : IsLowered c' := by
  unfold lowerBetween at h
  split at h
  · obtain rfl | h := List.mem_cons.mp h
    · exact isLowered_of_lowerChar (by decide) (by decide) (by decide)
    · obtain rfl := List.mem_singleton.mp h
      exact isLowered_of_lowerChar (by decide) (by decide) (by decide)
  · next hdot =>
    split at h
    · obtain rfl := List.mem_singleton.mp h
      split
      · exact isLowered_of_lowerChar (by decide) (by decide) (by decide)
      · exact isLowered_of_lowerChar (by decide) (by decide) (by decide)
    · obtain rfl := List.mem_singleton.mp h
      refine isLowered_of_lowerChar (lowerChar_ne_dotted hdot) ?_ (lowerChar_lowerChar c)
      intro hsigma
      have hagain := lowerChar_lowerChar c
      rw [hsigma] at hagain
      exact absurd hagain (by decide)

end Characters

theorem isLowered_of_mem_lower {t : Text} {c : CodePoint} (h : c ∈ lower t) : IsLowered c := by
  obtain ⟨d, -, before, after, hfrom⟩ := mem_lowerFrom h
  exact isLowered_of_mem_lowerBetween hfrom

/-- A text of characters that stand in some text in lower case is in lower case. -/
theorem lower_eq_self {t text : Text} (h : ∀ c ∈ t, c ∈ lower text) : lower t = t :=
  lowerFrom_eq_self (fun c hc => isLowered_of_mem_lower (h c hc)) []

end Concordance
