import Concordance.Index.Saved
import Concordance.Proofs.IdTables
import Concordance.Proofs.InvertedIndex

/-!
# Tables are read back as they were saved

What is saved of a table gives the table back or nothing. It gives nothing only where an
id has too many digits to be read. In text a term is read with its pairs joined, so that
terms which differ in nothing else are one term afterwards.
-/
namespace Concordance

namespace Form

/-- A value as it is read where it was written in a form. -/
def reread (form : Form) (j : Json) : Json := if form = .binary then j else j.restored

/-- A text as it is read where it was written in a form. -/
def rereadText (form : Form) (t : Text) : Text := if form = .binary then t else paired t

variable {form : Form}

theorem rereadText_eq_self {t : Text} (h : form = .binary ∨ hasPair t = false) :
    form.rereadText t = t := by
  rw [rereadText]
  split
  · rfl
  · next hform => exact paired_of_hasPair_eq_false (h.resolve_left hform)

theorem reread_of_restored {j : Json} (h : j.restored = j) : form.reread j = j := by
  rw [reread, h, ite_self]

/-- The members of an object make up a table of what is read of their names and their values. -/
theorem reread_obj {members : List (Text × Json)} (hdistinct : (members.map Prod.fst).Nodup) :
    form.reread (.obj members) =
      .obj (Table.ofList
        (members.map fun m => (form.rereadText m.1, form.reread m.2))).entries := by
  cases form with
  | binary =>
    have hsame := congrArg Table.entries (Table.ofList_entries (⟨members, hdistinct⟩ : Table _ _))
    exact congrArg Json.obj ((congrArg (fun l => (Table.ofList l).entries)
      (List.map_id members)).trans hsame).symm
  | line => exact Json.restored_obj members
  | lines => exact Json.restored_obj members

/-- The members of an object keep their places if their names are distinct and have no pairs. -/
theorem reread_obj_of_names {members : List (Text × Json)}
    (hnames : ∀ m ∈ members, hasPair m.1 = false) (hdistinct : (members.map Prod.fst).Nodup) :
    form.reread (.obj members) = .obj (members.map fun m => (m.1, form.reread m.2)) := by
  cases form with
  | binary => exact congrArg Json.obj (List.map_id members).symm
  | line => exact Json.restored_obj_of_names hnames hdistinct
  | lines => exact Json.restored_obj_of_names hnames hdistinct

/-- A table with ids is read as it was written if its values are. -/
theorem reread_write {α : Type} {encode : α → Json} {t : Table Int α}
    (h : ∀ e ∈ t.entries, (encode e.2).restored = encode e.2) :
    form.reread (form.keys.write encode t) = form.keys.write encode t := by
  cases form with
  | binary => rfl
  | line => exact IdKeys.restored_write h
  | lines => exact IdKeys.restored_write h

end Form

namespace Amount

@[simp] theorem restored_toJson (n : Int) : (toJson n).restored = toJson n := rfl

@[simp] theorem restored_reportedMean (total count : Int) :
    (reportedMean total count).restored = reportedMean total count := by
  unfold reportedMean
  split
  · split <;> rfl
  · rfl

end Amount

namespace Postings

theorem restored_entryJson (p : Posting Int) : (entryJson p).restored = entryJson p := by
  refine (Json.restored_obj_of_names ?_ ?_).trans rfl
  · simp
  · show ["doc_id".toText, "term_freq".toText].Nodup
    decide

theorem restored_toJson (p : Postings Int) : p.toJson.restored = p.toJson := by
  refine (Json.restored_obj_of_names ?_ ?_).trans ?_
  · simp
  · show ["postings".toText, "df".toText, "total_tf".toText].Nodup
    decide
  · simp [toJson, Function.comp_def, restored_entryJson]

end Postings

namespace InvertedIndex

variable {index : InvertedIndex Int} {form : Form} {term : Text}

theorem ofJson_entries (entries : List (Text × Postings Int))
    (h : ∀ e ∈ entries, e.2.Positive) :
    (entries.map fun e => (e.1, e.2.toJson)).mapM
      (fun member : Text × Json => do return (member.1, ← Postings.ofJson member.2)) =
        (.ok entries : Except Failure (List (Text × Postings Int))) := by
  have hentries : (entries.map fun e => (e.1, e.2.toJson)).mapM
      (fun member : Text × Json => do return (member.1, ← Postings.ofJson member.2)) =
        (.ok (entries.map id) : Except Failure (List (Text × Postings Int))) := by
    refine mapM_map_ok fun e he => ?_
    rw [Postings.ofJson_toJson (h e he)]
    rfl
  rwa [List.map_id] at hentries

theorem Sound.positive_of_mem (h : index.Sound) {e : Text × Postings Int}
    (he : e ∈ index.dictionary.entries) : e.2.Positive := by
  have hp := h.positive e.1
  rwa [postingsOf, Table.mem_entries_iff.mp he] at hp

/-- The index as it is read where it was written in a form. -/
def reread (form : Form) (index : InvertedIndex Int) : InvertedIndex Int :=
  { index with dictionary := .ofList (index.dictionary.entries.map fun e =>
    (form.rereadText e.1, e.2)) }

/-- A term that is read has the postings of a term that was written, or none. -/
theorem postings?_reread (form : Form) (index : InvertedIndex Int) (term : Text) :
    (index.reread form).postings? term = none ∨ ∃ written, form.rereadText written = term ∧
      (index.reread form).postings? term = index.postings? written := by
  cases hp : (index.reread form).postings? term with
  | none => exact .inl rfl
  | some p =>
    have hmem := Table.mem_of_get?_ofList hp
    obtain ⟨⟨written, p'⟩, hwritten, heq⟩ := List.mem_map.mp hmem
    cases heq
    exact .inr ⟨written, rfl, (Table.mem_entries_iff.mp hwritten).symm⟩

theorem reread_eq_self (h : form = .binary ∨ ∀ term ∈ index.dictionary.keys, hasPair term = false) :
    index.reread form = index := by
  have hsame : (index.dictionary.entries.map fun e => (form.rereadText e.1, e.2)) =
      index.dictionary.entries := by
    refine (List.map_congr_left fun e he => ?_).trans (List.map_id _)
    rw [Form.rereadText_eq_self (h.imp_right fun h => h e.1 (List.mem_map_of_mem he))]
    rfl
  rw [reread, hsame, Table.ofList_entries]

theorem reread_statistics : form.reread index.statistics = index.statistics := by
  refine Form.reread_of_restored ((Json.restored_obj_of_names ?_ ?_).trans ?_)
  · simp
  · show ["num_documents".toText, "vocabulary_size".toText, "total_tokens".toText,
      "avg_document_length".toText, "avg_postings_length".toText].Nodup
    decide
  · simp [statistics]

/-- What is read of a written index. -/
theorem reread_toJson : form.reread index.toJson =
    .obj [("dictionary".toText, .obj ((index.reread form).dictionary.entries.map fun e =>
      (e.1, e.2.toJson))), ("statistics".toText, index.statistics)] := by
  have hdictionary : form.reread (.obj (index.dictionary.entries.map fun e => (e.1, e.2.toJson))) =
      .obj ((index.reread form).dictionary.entries.map fun e => (e.1, e.2.toJson)) := by
    have hdistinct : ((index.dictionary.entries.map fun e => (e.1, e.2.toJson)).map
        Prod.fst).Nodup := by
      rw [List.map_map]
      exact index.dictionary.distinct
    have hvalues (e : Text × Postings Int) : form.reread e.2.toJson = e.2.toJson :=
      Form.reread_of_restored (Postings.restored_toJson e.2)
    rw [Form.reread_obj hdistinct, List.map_map, reread, ← Table.entries_ofList_map, List.map_map]
    simp only [Function.comp_def, hvalues]
  refine (Form.reread_obj_of_names ?_ ?_).trans ?_
  · simp
  · show ["dictionary".toText, "statistics".toText].Nodup
    decide
  · simp only [List.map_cons, List.map_nil, hdictionary, reread_statistics]

theorem ofJson_reread (h : index.Sound) :
    ofJson (form.reread index.toJson) = .ok (index.reread form) := by
  have hpositive : ∀ e ∈ (index.reread form).dictionary.entries, e.2.Positive := by
    rintro ⟨term, p⟩ he
    have hmem := Table.mem_of_get?_ofList (Table.mem_entries_iff.mp he)
    obtain ⟨written, hwritten, heq⟩ := List.mem_map.mp hmem
    cases heq
    exact h.positive_of_mem (e := written) hwritten
  rw [reread_toJson]
  change (do
    let entries ← ((index.reread form).dictionary.entries.map fun e : Text × Postings Int =>
      (e.1, e.2.toJson)).mapM
        (fun member : Text × Json => do return (member.1, ← Postings.ofJson member.2))
    return (⟨.ofList entries, index.documents, index.words⟩ : InvertedIndex Int)) = _
  rw [ofJson_entries _ hpositive, ok_bind, Table.ofList_entries]
  rfl

/-- An index is read back as it was written where its terms are read as they are. -/
theorem ofJson_toJson (h : index.Sound) : ofJson index.toJson = .ok index := by
  have hread : ofJson (Form.binary.reread index.toJson) = .ok (index.reread .binary) :=
    ofJson_reread h
  rwa [reread_eq_self (.inl rfl)] at hread

end InvertedIndex

namespace DocumentStore

variable {α : Type} {encode : α → Json} {decode : Json → Except Failure α} {keys : IdKeys}

theorem reread_write {form : Form} {store : DocumentStore α}
    (h : ∀ e ∈ store.contents.entries, (encode e.2).restored = encode e.2) :
    form.reread (store.write form.keys encode) = store.write form.keys encode := by
  refine (Form.reread_obj_of_names ?_ ?_).trans ?_
  · simp
  · exact List.nodup_singleton _
  · simp only [List.map_cons, List.map_nil, Form.reread_write h, write]

theorem read_write (hcode : ∀ x, decode (encode x) = .ok x) {store : DocumentStore α}
    (h : ∀ e ∈ store.contents.entries, keys.Keeps e.1) :
    read keys decode (store.write keys encode) = .ok store := by
  change (do return (⟨← keys.read decode (keys.write encode store.contents)⟩ : DocumentStore α)) = _
  rw [IdKeys.read_write hcode h]
  rfl

/-- What is read of a stored store is the store. -/
theorem eq_of_read_write (hcode : ∀ x, decode (encode x) = .ok x) {store store' : DocumentStore α}
    (h : read keys decode (store.write keys encode) = .ok store') : store' = store := by
  change (do return (⟨← keys.read decode (keys.write encode store.contents)⟩ : DocumentStore α)) = _
    at h
  rw [bind_eq_ok_iff] at h
  obtain ⟨contents, hcontents, h⟩ := h
  rw [IdKeys.eq_of_read_write hcode hcontents] at h
  exact (Except.ok.inj h).symm

end DocumentStore

namespace CollectionStatistics

variable {keys : IdKeys} {s s' : CollectionStatistics Int}

theorem reread_write {form : Form} (h : s.mean.restored = s.mean) :
    form.reread (s.write form.keys) = s.write form.keys := by
  refine (Form.reread_obj_of_names ?_ ?_).trans ?_
  · simp
  · show ["num_documents".toText, "total_terms".toText, "avg_document_length".toText,
      "document_lengths".toText].Nodup
    decide
  · have hlengths : form.reread (form.keys.write Amount.toJson s.lengths) =
        form.keys.write Amount.toJson s.lengths :=
      Form.reread_write fun _ _ => rfl
    simp only [List.map_cons, List.map_nil, write, hlengths, Form.reread_of_restored h,
      Form.reread_of_restored (Amount.restored_toJson _)]

theorem ofJson_toJson_count (n : Int) :
    (Amount.ofJson (Amount.toJson n) : Except Failure Int) = .ok n := rfl

theorem read_write_eq (keys : IdKeys) (s : CollectionStatistics Int) :
    read keys (s.write keys) = (do
      let lengths ← keys.read Amount.ofJson (keys.write Amount.toJson s.lengths)
      return ⟨s.documents, s.words, s.mean, lengths⟩) := rfl

theorem read_write (h : ∀ e ∈ s.lengths.entries, keys.Keeps e.1) :
    read keys (s.write keys) = .ok s := by
  rw [read_write_eq, IdKeys.read_write ofJson_toJson_count h]
  rfl

theorem eq_of_read_write (h : read keys (s.write keys) = .ok s') : s' = s := by
  rw [read_write_eq, bind_eq_ok_iff] at h
  obtain ⟨lengths, hlengths, h⟩ := h
  rw [IdKeys.eq_of_read_write ofJson_toJson_count hlengths] at h
  exact (Except.ok.inj h).symm

end CollectionStatistics

namespace HeldTables

/-- Tables are loaded from a folder when all three of them can be read there. -/
theorem load_eq_none_iff {held loaded : HeldTables} {s : IndexStorage} {folder : Path}
    {form : Form} :
    held.load s folder form = (loaded, .none) ↔ ∃ t, loaded = .all t ∧
      Tables.savedTerms s folder form = .ok t.terms ∧
      Tables.savedContents s folder form = .ok t.contents ∧
      Tables.savedStatistics s folder form = .ok t.statistics := by
  rw [load]
  constructor
  · intro h
    split at h
    · cases h
    · next terms hterms =>
      split at h
      · cases h
      · next contents hcontents =>
        split at h
        · cases h
        · next statistics hstatistics =>
          cases h
          exact ⟨⟨terms, contents, statistics⟩, rfl, hterms, hcontents, hstatistics⟩
  · rintro ⟨t, rfl, hterms, hcontents, hstatistics⟩
    simp only [hterms, hcontents, hstatistics]
    rfl

end HeldTables

namespace Content

/-- A saved value that is read was saved in text if it is read in text, and else in binary form. -/
theorem eq_of_read {form form' : Form} {j j' : Json}
    (h : (if form = .binary then ofBinary (.value form' j) else ofText (.value form' j)) =
      .ok j') :
    j' = form'.reread j ∧ form.keys = form'.keys := by
  cases form <;> cases form' <;> cases h <;> exact ⟨rfl, rfl⟩

end Content

end Concordance
