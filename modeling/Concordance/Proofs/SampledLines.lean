import Concordance.Proofs.CodePoints
import Concordance.Proofs.Except
import Concordance.Proofs.LoadedLines

/-!
# Samples of a dataset

A sample of a dataset is loaded as the file would be that is cut behind its first lines. What a line
gives is what a sample that ends with it gives beyond one that ends before it. That depends on the
number of the line and its own text, as long as no line before it ends the loading.
-/
namespace Concordance.Dataset

variable {o : DatasetOptions} {bytes : ByteArray} {text : String}

/-- The text of the first lines of a text, with their ends. -/
def firstLines : Nat → Text → Text
  | 0, _ => []
  | _ + 1, [] => []
  | k + 1, '\r' :: '\n' :: rest => '\r' :: '\n' :: firstLines k rest
  | k + 1, c :: rest =>
    if c = '\n' || c = '\r' then c :: firstLines k rest else c :: firstLines (k + 1) rest

theorem firstLines_isPrefix (k : Nat) (t : Text) : firstLines k t <+: t := by
  induction k, t using firstLines.induct with
  | case1 t =>
    rw [firstLines]
    exact List.nil_prefix
  | case2 k => exact List.nil_prefix
  | case3 k rest ih =>
    rw [firstLines]
    exact (List.prefix_cons_inj _).mpr ((List.prefix_cons_inj _).mpr ih)
  | case4 k c rest hno hend ih =>
    rw [firstLines, if_pos hend]
    · exact (List.prefix_cons_inj _).mpr ih
    · exact hno
  | case5 k c rest hno hend ih =>
    rw [firstLines, if_neg hend]
    · exact (List.prefix_cons_inj _).mpr ih
    · exact hno

/-- A character that is no end of a line, or an end of one character, by itself. -/
theorem lines_cons {c : CodePoint} {rest : Text}
    (h : ∀ rest', c = '\r' → rest = .char '\n' :: rest' → False) :
    lines (c :: rest) =
      if c = '\n' || c = '\r' then [] :: lines rest
      else match lines rest with
        | [] => [[c]]
        | line :: others => (c :: line) :: others :=
  lines.eq_3 c rest h

theorem lines_firstLines (k : Nat) (t : Text) : lines (firstLines k t) = (lines t).take k := by
  induction k, t using firstLines.induct with
  | case1 t =>
    rw [firstLines, List.take_zero]
    rfl
  | case2 k =>
    rw [firstLines]
    rfl
  | case3 k rest ih =>
    rw [firstLines, lines, lines, List.take_succ_cons, ih]
  | case4 k c rest hno hend ih =>
    -- What is left of the rest begins as it does, so no line feed comes behind a carriage return.
    have hno' : ∀ rest', c = '\r' → firstLines k rest = .char '\n' :: rest' → False := by
      intro rest' hc hrest
      obtain ⟨more, hmore⟩ := firstLines_isPrefix k rest
      rw [hrest] at hmore
      exact hno (rest' ++ more) hc hmore.symm
    rw [firstLines, if_pos hend, lines_cons hno', lines_cons hno, if_pos hend, if_pos hend,
      List.take_succ_cons, ih]
    exact hno
  | case5 k c rest hno hend ih =>
    have hc (rest : Text) : ∀ rest', c = '\r' → rest = .char '\n' :: rest' → False := by
      rintro rest' rfl
      exact absurd rfl hend
    rw [firstLines, if_neg hend, lines_cons (hc _), lines_cons (hc _), if_neg hend, if_neg hend, ih]
    · cases lines rest with
      | nil => rw [List.take_nil, List.take_succ_cons, List.take_nil]
      | cons line others => rw [List.take_succ_cons, List.take_succ_cons]
    · exact hno

/-- The file of a text, cut behind its first lines. -/
def cutAfter (k : Nat) (text : String) : ByteArray :=
  (stringOf (firstLines k text.toText)).toUTF8

theorem linesOf_of_text (htext : String.fromUTF8? bytes = some text) :
    linesOf bytes = lines text.toText := by
  rw [linesOf, htext]

theorem linesOf_cutAfter (htext : String.fromUTF8? bytes = some text) (k : Nat) :
    linesOf (cutAfter k text) = (linesOf bytes).take k := by
  have hcharacters : ∀ c ∈ firstLines k text.toText, c.isHalf = false := fun c hc =>
    isHalf_of_mem_toText ((firstLines_isPrefix k text.toText).subset hc)
  rw [cutAfter, linesOf_of_text (fromUTF8?_toUTF8 _), linesOf_of_text htext,
    toText_stringOf hcharacters, lines_firstLines]

/-- The lines that are looked at with a limit, all of them if it is nothing. -/
def within (k : Option Nat) (lines : List Text) : List Text :=
  match k with
  | none => lines
  | some k => lines.take k

theorem load_of_limit {k : Option Nat} (hk : limit o.sampleSize = .ok k) (lines : List Text) :
    load o none lines = loadFrom o none 1 (within k lines) := by
  rw [load, hk]
  cases lines with
  | nil => cases k <;> simp [within, loadFrom]
  | cons line rest =>
    cases k with
    | none => rfl
    | some k =>
      show (if k < (line :: rest).length then _ else _) = _
      split
      · rfl
      · next hle => rw [within, List.take_of_length_le (by omega)]

theorem loadBytes_of_text (htext : String.fromUTF8? bytes = some text) {k : Option Nat}
    (hk : limit o.sampleSize = .ok k) :
    loadBytes o bytes = loadFrom o none 1 (within k (linesOf bytes)) := by
  rw [loadBytes, htext, linesOf_of_text htext]
  exact load_of_limit hk _

/-- A line is read alike whatever the limit is. -/
theorem loadFrom_sampled (size : Json) (fault : Option Failure) (number : Nat)
    (lines : List Text) :
    loadFrom { o with sampleSize := size } fault number lines = loadFrom o fault number lines := by
  rw [loadFrom_eq, loadFrom_eq]
  rfl

theorem loadBytes_sampled (htext : String.fromUTF8? bytes = some text) (k : Int) :
    loadBytes { o with sampleSize := .int k } bytes =
      loadFrom o none 1 ((linesOf bytes).take k.toNat) :=
  (loadBytes_of_text (k := some k.toNat) htext rfl).trans (loadFrom_sampled _ _ _ _)

theorem zipIdx_take {α : Type} (l : List α) (k n : Nat) :
    (l.take k).zipIdx n = (l.zipIdx n).take k := by
  refine List.ext_getElem? fun i => ?_
  rw [List.getElem?_zipIdx, List.getElem?_take, List.getElem?_take, List.getElem?_zipIdx]
  split <;> rfl

theorem documents_sampled (htext : String.fromUTF8? bytes = some text) (k : Int) :
    (loadBytes { o with sampleSize := .int k } bytes).documents =
      (reached o (((linesOf bytes).zipIdx 1).take k.toNat)).filterMap (documentOn o) := by
  rw [loadBytes_sampled htext, loadFrom_eq, zipIdx_take]

/-- A greater sample begins with the documents of a smaller one. -/
theorem documents_sampled_isPrefix (htext : String.fromUTF8? bytes = some text) {k k' : Int}
    (hle : k ≤ k') :
    (loadBytes { o with sampleSize := .int k } bytes).documents <+:
      (loadBytes { o with sampleSize := .int k' } bytes).documents := by
  rw [documents_sampled htext, documents_sampled htext, reached, reached, ← List.take_takeWhile,
    ← List.take_takeWhile]
  refine List.IsPrefix.filterMap _ (List.take_prefix_take_left ?_)
  omega

/-- The documents that a line gives, the lines being counted from one: those of the sample that ends
with it beyond those of the sample that ends before it. -/
def givenBy (o : DatasetOptions) (bytes : ByteArray) (number : Nat) : List Document :=
  (loadBytes { o with sampleSize := .int number } bytes).documents.drop
    (loadBytes { o with sampleSize := .int (number - 1) } bytes).documents.length

/-- Loading reaches the line behind the first `i` ones: none of them ends it. -/
def Reaches (o : DatasetOptions) (bytes : ByteArray) (i : Nat) : Prop :=
  ∀ n < i, ∀ line, (linesOf bytes)[n]? = some line → ¬EndsAt o (line, n + 1)

theorem reaches_iff {i : Nat} :
    Reaches o bytes i ↔ ∀ line ∈ ((linesOf bytes).zipIdx 1).take i, ¬EndsAt o line := by
  have hget {n : Nat} (hn : n < i) : (((linesOf bytes).zipIdx 1).take i)[n]? =
      (linesOf bytes)[n]?.map fun line => (line, n + 1) := by
    rw [List.getElem?_take_of_lt hn, List.getElem?_zipIdx, Nat.add_comm]
  constructor
  · intro h line hline
    obtain ⟨n, hn⟩ := List.mem_iff_getElem?.mp hline
    have hlt : n < i := by
      by_contra hge
      rw [List.getElem?_take_eq_none (by omega)] at hn
      cases hn
    rw [hget hlt] at hn
    obtain ⟨line', hline', rfl⟩ := Option.map_eq_some_iff.mp hn
    exact h n hlt line' hline'
  · intro h n hn line hline
    refine h _ (List.mem_iff_getElem?.mpr ⟨n, ?_⟩)
    rw [hget hn, hline]
    rfl

theorem givenBy_eq (htext : String.fromUTF8? bytes = some text) (i : Nat) :
    givenBy o bytes (i + 1) =
      ((reached o (((linesOf bytes).zipIdx 1).take i ++
        ((linesOf bytes)[i]?.map fun line => (line, i + 1)).toList)).filterMap (documentOn o)).drop
          ((reached o (((linesOf bytes).zipIdx 1).take i)).filterMap (documentOn o)).length := by
  have hnumber : ((i + 1 : Nat) - 1 : Int).toNat = i := by omega
  rw [givenBy, documents_sampled htext, documents_sampled htext, Int.toNat_natCast, hnumber,
    List.take_add_one, List.getElem?_zipIdx, Nat.add_comm 1 i]

/-- A line that is reached gives the document on it, if there is one. -/
theorem givenBy_of_reaches (htext : String.fromUTF8? bytes = some text) {i : Nat}
    (h : Reaches o bytes i) :
    givenBy o bytes (i + 1) =
      ((linesOf bytes)[i]?.bind fun line => documentOn o (line, i + 1)).toList := by
  have hbefore := reaches_iff.mp h
  rw [givenBy_eq htext, reached_append_of_goes hbefore, reached_eq_self hbefore,
    List.filterMap_append, List.drop_left]
  cases (linesOf bytes)[i]? with
  | none => rfl
  | some line => exact filterMap_documentOn_reached (line, i + 1)

theorem givenBy_of_not_reaches (htext : String.fromUTF8? bytes = some text) {i : Nat}
    (h : ¬Reaches o bytes i) : givenBy o bytes (i + 1) = [] := by
  rw [givenBy_eq htext, reached_append_of_ends (mt reaches_iff.mpr h)]
  exact List.drop_length

/-- A document whose line names no id has the number of its line. -/
theorem id_of_documentOn {line : Text × Nat} {d : Document} {members : List (Text × Json)}
    (h : documentOn o line = some d) (hparse : Json.parse? line.1 = some (.obj members))
    (hid : ∀ name, o.idField = .str name → Json.find? name members = none) : d.1 = line.2 := by
  have hread := readLine_of_documentOn h
  rw [readLine, hparse] at hread
  split at hread
  · cases hread
  · obtain ⟨id, hmember, hread⟩ := bind_eq_ok_iff.mp hread
    obtain ⟨doc, hdoc, hread⟩ := bind_eq_ok_iff.mp hread
    obtain ⟨content, -, hread⟩ := bind_eq_ok_iff.mp hread
    have hdefault : id = .int line.2 := by
      cases hopen : o.idField.isOpen with
      | true =>
        rw [memberOr_of_open hopen] at hmember
        cases hmember
      | false =>
        rw [memberOr_of_unnamed hopen hid] at hmember
        exact (Except.ok.inj hmember).symm
    rw [hdefault] at hdoc
    cases hdoc
    cases hread
    rfl

section Replaced

variable {bytes' : ByteArray} {text' : String} {i j : Nat} {old new : Text}

/-- With another line in place of one, the same lines are reached, unless one of the two ends the
loading before. -/
theorem reaches_replaced_iff (hold : (linesOf bytes)[j]? = some old)
    (hlines : linesOf bytes' = (linesOf bytes).set j new)
    (hgoes : j < i → ¬EndsAt o (old, j + 1) ∧ ¬EndsAt o (new, j + 1)) :
    Reaches o bytes' i ↔ Reaches o bytes i := by
  refine forall_congr' fun n => forall_congr' fun hn => ?_
  by_cases hnj : n = j
  · subst hnj
    obtain ⟨hlt, hget⟩ := List.getElem?_eq_some_iff.mp hold
    simp [hlines, hlt, hget, hgoes hn]
  · rw [hlines, List.getElem?_set_ne (Ne.symm hnj)]

theorem givenBy_replaced (htext : String.fromUTF8? bytes = some text)
    (htext' : String.fromUTF8? bytes' = some text') (hold : (linesOf bytes)[j]? = some old)
    (hlines : linesOf bytes' = (linesOf bytes).set j new)
    (hgoes : j < i → ¬EndsAt o (old, j + 1) ∧ ¬EndsAt o (new, j + 1)) (hne : i ≠ j) :
    givenBy o bytes' (i + 1) = givenBy o bytes (i + 1) := by
  have hiff := reaches_replaced_iff hold hlines hgoes
  by_cases hreaches : Reaches o bytes i
  · rw [givenBy_of_reaches htext' (hiff.mpr hreaches), givenBy_of_reaches htext hreaches, hlines,
      List.getElem?_set_ne (Ne.symm hne)]
  · rw [givenBy_of_not_reaches htext' (mt hiff.mp hreaches), givenBy_of_not_reaches htext hreaches]

end Replaced

/-- A dataset is loaded line by line. -/
structure LoadsByLine (o : DatasetOptions) (bytes : ByteArray) (text : String) : Prop where
  /-- A sample comes to the same as the whole of the file that is cut behind its lines, with the
  same reports and the same failure. -/
  sampled : ∀ k : Int, loadBytes { o with sampleSize := .int k } bytes =
    loadBytes { o with sampleSize := .null } (cutAfter k.toNat text)
  empty : ∀ k : Int, k ≤ 0 → loadBytes { o with sampleSize := .int k } bytes = .ended none
  grows : ∀ k k' : Int, k ≤ k' → (loadBytes { o with sampleSize := .int k } bytes).documents <+:
    (loadBytes { o with sampleSize := .int k' } bytes).documents
  /-- A line that is reached gives one document at most, which its number and its own text tell. -/
  gives : ∀ i, Reaches o bytes i → givenBy o bytes (i + 1) =
    ((linesOf bytes)[i]?.bind fun line => documentOn o (line, i + 1)).toList
  /-- A line that is not reached gives nothing. -/
  stops : ∀ i, ¬Reaches o bytes i → givenBy o bytes (i + 1) = []
  /-- A document has the number of its line as its id, if the line names none. -/
  numbered : ∀ i line members, (linesOf bytes)[i]? = some line →
    Json.parse? line = some (.obj members) →
    (∀ name, o.idField = .str name → Json.find? name members = none) →
      ∀ d ∈ givenBy o bytes (i + 1), d.1 = (i + 1 : Nat)
  /-- Another line in place of one makes no difference to what any other line gives, if it does not
  end the loading. The old line must not have ended it either, before the other was reached. -/
  replaced : ∀ bytes' text' j old new, String.fromUTF8? bytes' = some text' →
    (linesOf bytes)[j]? = some old → linesOf bytes' = (linesOf bytes).set j new →
    ¬EndsAt o (new, j + 1) →
      ∀ i, i ≠ j → (Reaches o bytes i ∨ ¬EndsAt o (old, j + 1)) →
        givenBy o bytes' (i + 1) = givenBy o bytes (i + 1)

/-- Every file that is encoded as it should be is loaded line by line, whatever its lines are. -/
theorem loadsByLine (o : DatasetOptions) (htext : String.fromUTF8? bytes = some text) :
    LoadsByLine o bytes text where
  sampled k := by
    have hcut : String.fromUTF8? (cutAfter k.toNat text) = some _ := fromUTF8?_toUTF8 _
    rw [loadBytes_sampled htext, loadBytes_of_text hcut rfl, linesOf_cutAfter htext]
    exact (loadFrom_sampled .null none 1 _).symm
  empty k hk := by
    rw [loadBytes_sampled htext, Int.toNat_of_nonpos hk, List.take_zero]
    rfl
  grows _ _ hle := documents_sampled_isPrefix htext hle
  gives _ := givenBy_of_reaches htext
  stops _ := givenBy_of_not_reaches htext
  numbered i line members hline hparse hid d hd := by
    by_cases hreaches : Reaches o bytes i
    · rw [givenBy_of_reaches htext hreaches, hline, Option.bind_some, Option.mem_toList] at hd
      exact id_of_documentOn hd hparse hid
    · rw [givenBy_of_not_reaches htext hreaches] at hd
      exact absurd hd List.not_mem_nil
  replaced _ _ j old _ htext' hold hlines hnew i hne hbefore := by
    refine givenBy_replaced htext htext' hold hlines (fun hlt => ⟨?_, hnew⟩) hne
    rcases hbefore with hreaches | hold'
    · exact hreaches j hlt old hold
    · exact hold'

/-- The theorem at a file with three kinds of line ends, a blank line, and one that ends the
loading. -/
theorem loadsByLine_mixed_ends :
    let text := "\x7b\"id\": 7\x7d\r\n\n\x7b\"text\": \"cat\"\x7d\r[1]\n" ++
      "\x7b\"id\": Infinity\x7d\n\x7b\x7d"
    let o : DatasetOptions := ⟨.str ['i', 'd'], .str ['t', 'e', 'x', 't'], .null⟩
    let loaded (k : Int) := loadBytes { o with sampleSize := .int k } text.toUTF8
    LoadsByLine o text.toUTF8 text ∧ (loaded 4).documents.map Prod.fst = [7, 3] ∧
      (loaded 4).failure = none ∧ (loaded 5).failure = some .infinite := by
  intro text o loaded
  exact ⟨loadsByLine o (fromUTF8?_toUTF8 text), by decide +kernel⟩

end Concordance.Dataset
