import Concordance.CommandLine.SearchCli
import Concordance.Proofs.Cleaning
import Concordance.Proofs.LoadedLines
import Concordance.Proofs.ReadValues

/-!
# What is loaded of a dataset

The ids of all documents that are loaded can be written, and their texts have no pairs. The first
text that is loaded for an id is that of the first line with one.
-/
namespace Concordance

open Ingestion (documentOf firstText unpack)
open Work (entryOf)

namespace Dataset

variable {o : DatasetOptions}

/-- The text on a line, if the line loads with the given id and a text that is not empty. -/
def textOn (o : DatasetOptions) (doc : Int) (line : Text × Nat) : Option Text :=
  match readLine o line.2 line.1 with
  | .ok (some (id, .str (c :: text))) => if id = doc then some (c :: text) else none
  | _ => none

/-- The text of the first line that loads with an id and a text that is not empty. -/
def textOf (o : DatasetOptions) (bytes : ByteArray) (doc : Int) : Option Text :=
  ((linesOf bytes).zipIdx 1).findSome? (textOn o doc)

/-- A line has no other code points than the text in which it stands. -/
theorem mem_of_mem_lines {t line : Text} (hline : line ∈ lines t) {c : CodePoint} (hc : c ∈ line) :
    c ∈ t := by
  induction t using lines.induct generalizing line with
  | case1 => cases hline
  | case2 rest ih =>
    rw [lines] at hline
    obtain rfl | hline := List.mem_cons.mp hline
    · cases hc
    · simp [ih hline hc]
  | case3 d rest hother hend ih =>
    rw [lines, if_pos hend] at hline
    · obtain rfl | hline := List.mem_cons.mp hline
      · cases hc
      · exact .tail _ (ih hline hc)
    · exact hother
  | case4 d rest hother hend hnone ih =>
    rw [lines, if_neg hend, hnone] at hline
    · rw [List.mem_singleton.mp hline] at hc
      cases List.mem_singleton.mp hc
      exact .head _
    · exact hother
  | case5 d rest hother hend first others hfirst ih =>
    rw [lines, if_neg hend, hfirst] at hline
    · obtain rfl | hline := List.mem_cons.mp hline
      · obtain rfl | hc := List.mem_cons.mp hc
        · exact .head _
        · exact .tail _ (ih (hfirst ▸ .head _) hc)
      · exact .tail _ (ih (hfirst ▸ .tail _ hline) hc)
    · exact hother

/-- The lines of a dataset are texts of characters. -/
theorem isHalf_of_mem_linesOf {bytes : ByteArray} {line : Text} (hline : line ∈ linesOf bytes) :
    ∀ c ∈ line, c.isHalf = false := by
  rw [linesOf] at hline
  split at hline
  · exact fun c hc => isHalf_of_mem_toText (mem_of_mem_lines hline hc)
  · cases hline

theorem isStable_memberOr {default field v : Json} {members : List (Text × Json)}
    (hdefault : default.IsStable) (hmembers : (Json.obj members).IsStable)
    (h : memberOr default field members = .ok v) : v.IsStable := by
  unfold memberOr at h
  split at h
  · cases h
  · cases field with
    | str name =>
      cases h
      cases hfind : Json.find? name members with
      | none => exact hdefault
      | some v =>
        obtain ⟨before, after, rfl, -⟩ := List.lookup_eq_some_iff.mp hfind
        cases hmembers with
        | obj _ _ values => exact values (name, v) (by simp)
    | _ =>
      cases h
      exact hdefault

/-- The id of a document that is read on a line can be written, and its content is read as it is. -/
theorem isStable_of_readLine {number : Nat} {line : Text} {d : Document}
    (hline : ∀ c ∈ line, c.isHalf = false) (h : readLine o number line = .ok (some d)) :
    d.2.IsStable ∧ (isWritable number = true → isWritable d.1 = true) := by
  unfold readLine at h
  split at h
  · cases h
  · split at h
    · cases h
    · next members hparse =>
      have hmembers := Json.isStable_of_parse? hline hparse
      obtain ⟨id, hid, h⟩ := bind_eq_ok_iff.mp h
      obtain ⟨doc, hdoc, h⟩ := bind_eq_ok_iff.mp h
      obtain ⟨content, hcontent, h⟩ := bind_eq_ok_iff.mp h
      cases h
      refine ⟨isStable_memberOr (.str rfl) hmembers hcontent, fun hnumber => ?_⟩
      exact Json.isWritable_of_toInteger hdoc
        (isStable_memberOr (.int hnumber) hmembers hid).isWritable
    · cases h

/-- The documents of a dataset can all be reported. -/
theorem legible_documents {lines : List Text} (hlines : lines.length < 10 ^ maxDigits)
    (hhalves : ∀ line ∈ lines, ∀ c ∈ line, c.isHalf = false) :
    Ingestion.Legible (((lines.zipIdx 1).filterMap (documentOn o)).map entryOf) := by
  intro entry hentry
  obtain ⟨d, hd, rfl⟩ := List.mem_map.mp hentry
  obtain ⟨⟨line, number⟩, hline, hdocument⟩ := List.mem_filterMap.mp hd
  have hnumber : isWritable number = true := by
    have hle := List.snd_lt_of_mem_zipIdx hline
    exact isWritable_iff.mpr (by omega)
  have hread := isStable_of_readLine (hhalves line (List.fst_mem_of_mem_zipIdx hline))
    (readLine_of_documentOn hdocument)
  exact ⟨_, rfl, hread.2 hnumber⟩

theorem unpack_entryOf {documents : List Document} :
    ∀ entry ∈ documents.map entryOf, ∃ p, unpack entry = .ok p := by
  intro entry hentry
  obtain ⟨d, -, rfl⟩ := List.mem_map.mp hentry
  exact ⟨_, rfl⟩

theorem documentOf_entryOf (id : Int) (content : Json) :
    documentOf (entryOf (id, content)) =
      match content with
      | .str (c :: text) => some (id, paired (c :: text))
      | _ => none := by
  cases content with
  | str t => cases t <;> rfl
  | null => rfl
  | _ => exact ite_self none

theorem firstText_entryOf (id : Int) (content : Json) (rest : List Json) (doc : Int) :
    content.IsStable → firstText (entryOf (id, content) :: rest) doc =
      match content with
      | .str (c :: text) => if id = doc then some (c :: text) else firstText rest doc
      | _ => firstText rest doc := by
  intro hcontent
  rw [firstText, List.filterMap_cons, documentOf_entryOf]
  cases hcontent with
  | @str t hpairs =>
    cases t with
    | nil => rfl
    | cons c text =>
      simp only
      rw [paired_of_hasPair_eq_false hpairs, Table.lookup_entry]
      exact if_congr eq_comm rfl rfl
  | _ => rfl

/-- The first text that is loaded for an id is that of the first line with one. -/
theorem firstText_documents (o : DatasetOptions) (doc : Int) {lines : List (Text × Nat)}
    (hhalves : ∀ line ∈ lines, ∀ c ∈ line.1, c.isHalf = false) :
    firstText ((lines.filterMap (documentOn o)).map entryOf) doc =
      lines.findSome? (textOn o doc) := by
  induction lines with
  | nil => rfl
  | cons line rest ih =>
    obtain ⟨hline, hrest⟩ := List.forall_mem_cons.mp hhalves
    rw [List.filterMap_cons, List.findSome?_cons, documentOn, textOn, ← ih hrest]
    cases hread : readLine o line.2 line.1 with
    | error reason => rfl
    | ok d =>
      cases d with
      | none => rfl
      | some d =>
        obtain ⟨id, content⟩ := d
        refine (firstText_entryOf id content _ doc (isStable_of_readLine hline hread).1).trans ?_
        cases content with
        | str t =>
          cases t with
          | nil => rfl
          | cons c text =>
            simp only
            split <;> rfl
        | _ => rfl

end Dataset

end Concordance
