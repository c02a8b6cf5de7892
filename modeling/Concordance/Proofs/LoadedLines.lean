import Concordance.Dataset
import Mathlib.Data.List.TakeWhile

/-!
# Loading line by line

Loading a dataset goes through its lines up to the first one that ends it. Each line on the way
gives a document, a report or nothing, and does so by itself. What comes of loading is said once, by
one equation, and all else follows from that.
-/
namespace Concordance.Dataset

variable {o : DatasetOptions} {fault : Option Failure} {bytes : ByteArray}

section Members

variable {default field : Json} {members : List (Text × Json)}

theorem memberOr_of_open (h : field.isOpen = true) :
    memberOr default field members = .error .leftOpen := by
  unfold memberOr
  exact if_pos h

/-- A field that names no member stands for the default. -/
theorem memberOr_of_unnamed (hopen : field.isOpen = false)
    (h : ∀ name, field = .str name → Json.find? name members = none) :
    memberOr default field members = .ok default := by
  unfold memberOr
  rw [hopen, if_neg Bool.false_ne_true]
  cases field with
  | str name =>
    simp only [h name rfl]
    rfl
  | _ => rfl

theorem exists_memberOr (hopen : field.isOpen = false) :
    ∃ value, memberOr default field members = .ok value := by
  unfold memberOr
  rw [hopen, if_neg Bool.false_ne_true]
  cases field with
  | str name => exact ⟨_, rfl⟩
  | _ => exact ⟨_, rfl⟩

end Members

/-- The lines of a dataset that is encoded as it should be. -/
def linesOf (bytes : ByteArray) : List Text :=
  match String.fromUTF8? bytes with
  | some text => lines text.toText
  | none => []

/-- The document on a line with its number, if it loads. -/
def documentOn (o : DatasetOptions) (line : Text × Nat) : Option Document :=
  (readLine o line.2 line.1).toOption.join

theorem readLine_of_documentOn {line : Text × Nat} {d : Document}
    (h : documentOn o line = some d) : readLine o line.2 line.1 = .ok (some d) := by
  rw [documentOn] at h
  cases hline : readLine o line.2 line.1 with
  | error reason =>
    rw [hline] at h
    cases h
  | ok d' =>
    rw [hline] at h
    exact congrArg Except.ok h

/-- What is reported of a line with its number, if it cannot be read. -/
def reportOn (o : DatasetOptions) (line : Text × Nat) : Option LogLine :=
  match readLine o line.2 line.1 with
  | .ok _ => none
  | .error reason => some (lineError line.2 reason)

/-- The failure with which a line ends the loading, if it does. -/
def endOn (o : DatasetOptions) (line : Text × Nat) : Option Failure :=
  match readLine o line.2 line.1 with
  | .ok _ => none
  | .error reason => if ends reason then some reason else none

theorem readLine_of_endOn {line : Text × Nat} {reason : Failure} (h : endOn o line = some reason) :
    readLine o line.2 line.1 = .error reason := by
  rw [endOn] at h
  split at h
  · cases h
  · next reason' hreason =>
    split at h
    · rw [hreason, Option.some.inj h]
    · cases h

/-- A line, with its number, at which loading ends. -/
def EndsAt (o : DatasetOptions) (line : Text × Nat) : Prop :=
  ∃ reason, readLine o line.2 line.1 = .error reason ∧ ends reason = true

theorem endOn_eq_none_iff {line : Text × Nat} : endOn o line = none ↔ ¬EndsAt o line := by
  rw [endOn, EndsAt]
  cases readLine o line.2 line.1 with
  | ok d => simp
  | error reason => simp

/-- The lines before the first one that ends the loading. -/
def reached (o : DatasetOptions) (lines : List (Text × Nat)) : List (Text × Nat) :=
  lines.takeWhile fun line => (endOn o line).isNone

theorem reached_cons_of_none {line : Text × Nat} (h : endOn o line = none)
    (rest : List (Text × Nat)) : reached o (line :: rest) = line :: reached o rest :=
  List.takeWhile_cons_of_pos (by rw [h]; rfl)

theorem reached_eq_self {lines : List (Text × Nat)} (h : ∀ line ∈ lines, ¬EndsAt o line) :
    reached o lines = lines := by
  refine List.takeWhile_eq_self_iff.mpr fun line hline => ?_
  rw [endOn_eq_none_iff.mpr (h line hline)]
  rfl

theorem reached_append_of_goes {lines : List (Text × Nat)} (h : ∀ line ∈ lines, ¬EndsAt o line)
    (rest : List (Text × Nat)) : reached o (lines ++ rest) = lines ++ reached o rest := by
  refine List.takeWhile_append_of_pos fun line hline => ?_
  rw [endOn_eq_none_iff.mpr (h line hline)]
  rfl

/-- Lines behind one that ends the loading make no difference. -/
theorem reached_append_of_ends {lines : List (Text × Nat)} (h : ¬∀ line ∈ lines, ¬EndsAt o line)
    (rest : List (Text × Nat)) : reached o (lines ++ rest) = reached o lines := by
  refine (List.takeWhile_append ..).trans (if_neg fun hlength => h fun line hline => ?_)
  have hall := (List.takeWhile_prefix _).eq_of_length hlength
  have hgoes := List.takeWhile_eq_self_iff.mp hall line hline
  exact endOn_eq_none_iff.mp (Option.isNone_iff_eq_none.mp hgoes)

/-- A line by itself gives its document, if it has one. -/
theorem filterMap_documentOn_reached (line : Text × Nat) :
    (reached o [line]).filterMap (documentOn o) = (documentOn o line).toList := by
  by_cases hends : EndsAt o line
  · have hnone : documentOn o line = none := by
      obtain ⟨reason, hreason, -⟩ := hends
      rw [documentOn, hreason]
      rfl
    have hreached : reached o [line] = [] := by
      rw [reached, List.takeWhile_cons_of_neg]
      rwa [Option.isNone_iff_eq_none, endOn_eq_none_iff, not_not]
    rw [hreached, hnone]
    rfl
  · rw [reached_cons_of_none (endOn_eq_none_iff.mpr hends), List.filterMap_cons]
    cases documentOn o line <;> rfl

/-- What comes of loading lines: the documents and the reports of those before the first that ends
the loading, and the failure with which that one ends it. -/
theorem loadFrom_eq (o : DatasetOptions) (fault : Option Failure) (number : Nat)
    (lines : List Text) :
    loadFrom o fault number lines =
      ⟨(reached o (lines.zipIdx number)).filterMap (documentOn o),
        (reached o (lines.zipIdx number)).filterMap (reportOn o),
        ((lines.zipIdx number).findSome? (endOn o)).or fault⟩ := by
  induction lines generalizing number with
  | nil => rfl
  | cons line rest ih =>
    rw [List.zipIdx_cons, loadFrom, List.findSome?_cons]
    cases hline : readLine o number line with
    | ok d =>
      have hend : endOn o (line, number) = none := by rw [endOn, hline]
      have hdocument : documentOn o (line, number) = d := by rw [documentOn, hline]; rfl
      have hreport : reportOn o (line, number) = none := by rw [reportOn, hline]
      rw [hend, reached_cons_of_none hend, List.filterMap_cons, List.filterMap_cons, hdocument,
        hreport]
      cases d with
      | none => exact ih (number + 1)
      | some d => exact congrArg (Loaded.cons d) (ih (number + 1))
    | error reason =>
      have hdocument : documentOn o (line, number) = none := by rw [documentOn, hline]; rfl
      have hreport : reportOn o (line, number) = some (lineError number reason) := by
        rw [reportOn, hline]
      cases hends : ends reason with
      | true =>
        have hend : endOn o (line, number) = some reason := by rw [endOn, hline]; simp [hends]
        rw [hend, reached, List.takeWhile_cons_of_neg (by simp [hend])]
        simp only [hends, if_true]
        rfl
      | false =>
        have hend : endOn o (line, number) = none := by rw [endOn, hline]; simp [hends]
        rw [hend, reached_cons_of_none hend, List.filterMap_cons, List.filterMap_cons, hdocument,
          hreport]
        simp only [hends, Bool.false_eq_true, if_false]
        exact congrArg (Loaded.report (lineError number reason)) (ih (number + 1))

/-- Lines load to the end unless one of them ends the loading or a fault follows them. -/
theorem failure_loadFrom_eq_none_iff {number : Nat} {lines : List Text} :
    (loadFrom o fault number lines).failure = none ↔
      fault = none ∧ ∀ line ∈ lines.zipIdx number, ¬EndsAt o line := by
  rw [loadFrom_eq]
  simp only [Option.or_eq_none_iff, List.findSome?_eq_none_iff, endOn_eq_none_iff]
  exact and_comm

/-- If no line ends the loading, each gives what it gives by itself, up to the fault. -/
theorem loadFrom_of_goes {number : Nat} {lines : List Text}
    (h : ∀ line ∈ lines.zipIdx number, ¬EndsAt o line) :
    loadFrom o fault number lines =
      ⟨(lines.zipIdx number).filterMap (documentOn o), (lines.zipIdx number).filterMap (reportOn o),
        fault⟩ := by
  have hnone : (lines.zipIdx number).findSome? (endOn o) = none :=
    List.findSome?_eq_none_iff.mpr fun line hline => endOn_eq_none_iff.mpr (h line hline)
  rw [loadFrom_eq, reached_eq_self h, hnone, Option.none_or]

theorem documents_loadFrom {number : Nat} {lines : List Text}
    (h : (loadFrom o fault number lines).failure = none) :
    (loadFrom o fault number lines).documents =
      (lines.zipIdx number).filterMap (documentOn o) := by
  rw [loadFrom_of_goes (failure_loadFrom_eq_none_iff.mp h).2]

/-- A dataset without a limit loads from its first line on, also if there is none. -/
theorem load_of_null (ho : o.sampleSize = .null) (lines : List Text) :
    load o fault lines = loadFrom o fault 1 lines := by
  rw [load, ho]
  cases lines <;> rfl

/-- A dataset of which all lines are read loads exactly if it is encoded as it should be and none of
its lines ends the loading. -/
theorem failure_loadBytes_eq_none_iff (ho : o.sampleSize = .null) :
    (loadBytes o bytes).failure = none ↔
      (String.fromUTF8? bytes).isSome = true ∧
        ∀ line ∈ (linesOf bytes).zipIdx 1, ¬EndsAt o line := by
  rw [loadBytes, linesOf]
  cases String.fromUTF8? bytes with
  | some text =>
    simp only [load_of_null ho, failure_loadFrom_eq_none_iff]
    exact and_congr_left fun _ => by simp
  | none =>
    simp only [load_of_null ho, failure_loadFrom_eq_none_iff]
    exact iff_of_false (fun h => nomatch h.1) (by simp)

theorem documents_loadBytes (ho : o.sampleSize = .null) (h : (loadBytes o bytes).failure = none) :
    (loadBytes o bytes).documents = ((linesOf bytes).zipIdx 1).filterMap (documentOn o) := by
  rw [loadBytes] at h ⊢
  rw [linesOf]
  cases htext : String.fromUTF8? bytes with
  | some text =>
    simp only [htext, load_of_null ho] at h ⊢
    exact documents_loadFrom h
  | none =>
    simp only [htext, load_of_null ho, failure_loadFrom_eq_none_iff] at h
    exact nomatch h.1

end Concordance.Dataset
