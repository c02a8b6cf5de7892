import Concordance.Proofs.Interchange
import Concordance.Proofs.MadeFolders

/-!
# The format of saved indexes

An index in memory is saved in the format that it is set to, and is set to the format of an
index that it loads. Where the formats of all stored indexes are of some kind, as one format
or formats that can be written, none of these operations brings in a format of another kind.
-/
namespace Concordance

/-- Whatever metadata are stored, the format that they name is one of some kind. -/
def SavedAs (kind : Json → Prop) (s : IndexStorage) : Prop :=
  ∀ (place : Path) (content : Content) (metadata format : Json),
    s.node? (place.inside Tables.metadataFile) = some (.file content) →
    content.ofText = .ok metadata →
    Json.find? "format".toText metadata.members = some format → kind format

namespace SavedAs

variable {kind : Json → Prop} {format : Json} {s s' : IndexStorage}

theorem empty (kind : Json → Prop) : SavedAs kind .empty :=
  fun _ _ _ _ hfile => absurd hfile (Storage.node?_empty_ne_file _ _)

theorem of_noNewFiles (h : SavedAs kind s) (hs : Storage.NoNewFiles s s') : SavedAs kind s' :=
  fun place content metadata format hfile => h place content metadata format (hs _ _ hfile)

/-- Files are written whose metadata name a format of which what is read is of the kind. -/
theorem writeIn (h : SavedAs kind s) (hformat : kind format.restored) (folder : Path)
    {files : List (Text × Content)} (hfiles : MemoryIndex.NamesFormat (.value format) files) :
    SavedAs kind (s.writeIn folder files).1 := by
  intro place content metadata other hfile hread hother
  obtain hbefore | ⟨f, hf, hplace, rfl⟩ := Storage.file_of_writeIn hfile
  · exact h place content metadata other hbefore hread hother
  · obtain hbegun | ⟨j, x, t, hj, hvalue⟩ := hfiles f hf (Path.inside_inj hplace).2.symm
    · rw [hbegun] at hread
      cases hread
    · cases hj
      rw [hvalue] at hread
      cases hread
      cases hother
      exact hformat

/-- Metadata that are read in a folder name a format of the kind. -/
theorem metadataIn (h : SavedAs kind s) {path : Path} {metadata : Json}
    (hmetadata : MemoryIndex.metadataIn s path = .ok metadata)
    (hformat : Json.find? "format".toText metadata.members = some format) : kind format := by
  rw [MemoryIndex.metadataIn, bind_eq_ok_iff] at hmetadata
  obtain ⟨content, hread, hcontent⟩ := hmetadata
  obtain ⟨place, hplace, hfile⟩ := Storage.node?_of_read hread
  have hfits : path.fits Tables.metadataFile = true := by
    simp [Path.fits, (Storage.locate_eq_ok_iff.mp hplace).2.1]
  rw [Storage.locate_child_eq (Tables.isFileName_of_mem (.head _)) hfits, map_eq_ok_iff] at hplace
  obtain ⟨around, -, rfl⟩ := hplace
  exact h around content metadata format hfile hcontent hformat

end SavedAs

namespace MemoryIndex

variable {x : MemoryIndex} {s : IndexStorage} {format : Json}

theorem format_create (x : MemoryIndex) (s : IndexStorage) (now : Text) (name : Json)
    (entries : List Json) : (x.create s now name entries).index.format = x.format := by
  obtain ⟨cleared, e, -, hfails⟩ | ⟨cleared, t, -, -, hbuilds⟩ := create_cases x s now name
  · obtain ⟨log, hlog⟩ := hfails entries
    rw [hlog]
  · obtain ⟨log, hlog⟩ := hbuilds entries
    rw [hlog, build]
    split <;> rfl

/-- An index that is set to a format of a kind is set to one after it has been restored. -/
theorem format_restore {kind : Json → Prop} (hformat : ∃ j, x.format = .value j ∧ kind j)
    (s : IndexStorage) (folder : Path) {metadata : Json}
    (h : ∀ j, Json.find? "format".toText metadata.members = some j → kind j) :
    ∃ j, (x.restore s folder metadata).1.format = .value j ∧ kind j := by
  have hnamed : ∃ j, ((Json.find? "format".toText metadata.members).map
      TableFormat.value).getD x.format = .value j ∧ kind j := by
    cases hfind : Json.find? "format".toText metadata.members with
    | none => exact hformat
    | some j => exact ⟨j, rfl, h j hfind⟩
  unfold restore
  split
  · exact hformat
  · exact hformat
  · simp only
    split
    · exact hnamed
    · split <;> exact hnamed

/-- So it is after any load where formats of that kind are stored. -/
theorem format_load {kind : Json → Prop} (hformat : ∃ j, x.format = .value j ∧ kind j)
    (h : SavedAs kind s) (path : Path) :
    ∃ j, (x.load s path).index.format = .value j ∧ kind j := by
  obtain ⟨log, e, heq⟩ | ⟨metadata, y, hmetadata, hrestore⟩ := x.load_cases s path
  · rwa [heq]
  · have hrestored := format_restore hformat s path fun j hj => h.metadataIn hmetadata hj
    obtain ⟨log, hrestore, heq⟩ | ⟨e, hrestore, heq⟩ := hrestore
    all_goals
      rw [hrestore] at hrestored
      rwa [heq]

/-- What a creation keeps of the storage: what the removal of its folder, the making of folders and
the writing of files keep. -/
theorem storage_create {P : IndexStorage → Prop} {name : Json} (hformat : x.format = .value format)
    (hremove : ∀ t, name = .str t → ∀ s, P s → P (s.remove (x.home.child t)).1)
    (hmake : ∀ s path, P s → P (s.makeFolders path).1)
    (hwrite : ∀ s folder files, P s → NamesFormat (.value format) files →
      P (s.writeIn folder files).1)
    (hs : P s) (now : Text) (entries : List Json) :
    P (x.create s now name entries).storage := by
  have hsave {y : MemoryIndex} {t : Tables} {made : IndexStorage} {path : Path}
      (hy : y.format = .value format) (hmade : P made) : P (y.saveIn t made path).1 := by
    obtain ⟨files, hfiles, hnames⟩ := y.exists_files_saveIn t made path
    rw [hfiles]
    exact hwrite made path files hmade (hy ▸ hnames)
  have hbuild {cleared : IndexStorage} (hcleared : P cleared) (path : Path) :
      P (MemoryIndex.build { x with name := name } cleared now path entries).storage := by
    rw [build]
    split
    · exact hcleared
    · simp only [save]
      have hmade := hmake cleared path hcleared
      cases hfolder : cleared.makeFolders path with
      | mk made failure =>
        rw [hfolder] at hmade
        cases failure with
        | some e => exact hmade
        | none =>
          exact hsave hformat hmade
  simp only [create]
  cases hname : name.text with
  | error e => exact hs
  | ok t =>
    have hremoved := hremove t (Json.text_eq_ok_iff.mp hname) s hs
    simp only [replace]
    cases s.contains (x.home.child t) with
    | error e => exact hs
    | ok there =>
      cases there with
      | false => exact hbuild hs _
      | true =>
        cases hcleared : s.remove (x.home.child t) with
        | mk cleared failure =>
          rw [hcleared] at hremoved
          cases failure with
          | some e => exact hremoved
          | none => exact hbuild hremoved _

end MemoryIndex

/-- What a creation of a database keeps of the storage: what the removal of its folder, the making
of folders and the writing of a database keep. -/
theorem DatabaseIndex.storage_create {x : DatabaseIndex} {s : IndexStorage}
    {P : IndexStorage → Prop} (hremove : ∀ s path, P s → P (s.remove path).1)
    (hmake : ∀ s path, P s → P (s.makeFolders path).1)
    (hwrite : ∀ s folder d, P s → P (s.writeIn folder [(databaseFile, .database d)]).1)
    (hs : P s) (name : Json) (entries : List Json) : P (x.create s name entries).storage := by
  have hbuild {y : DatabaseIndex} {cleared : IndexStorage} (hcleared : P cleared) (t : Text)
      (path : Path) : P (y.build cleared t path entries).storage := by
    have hmade := hmake cleared path hcleared
    rw [build]
    cases hfolder : cleared.makeFolders path with
    | mk made failure =>
      rw [hfolder] at hmade
      cases failure with
      | some e => exact hmade
      | none =>
        have hopened := hwrite made path .empty hmade
        simp only
        cases hwritten : made.writeIn path [(databaseFile, .database .empty)] with
        | mk opened failure =>
          rw [hwritten] at hopened
          cases failure with
          | some e => exact hopened
          | none =>
            simp only [fill]
            split <;> exact hwrite _ _ _ hopened
  rw [create]
  split
  · next t _ =>
    have hremoved := hremove s (x.close.home.child t) hs
    simp only [replace]
    split
    · exact hs
    · exact hbuild hs _ _
    · split
      · next left e hleft =>
        rw [hleft] at hremoved
        exact hremoved
      · next left hleft =>
        rw [hleft] at hremoved
        exact hbuild hremoved _ _
  · exact hs

namespace Index

/-- A creation leaves an index set as it was. -/
theorem interchangeable_create (x : Index) (s : IndexStorage) (now : Text) (name : Json)
    (entries : List Json) : (x.create s now name entries).index.Interchangeable x := by
  refine ⟨(x.sameIndex_create s now name entries).symm, ?_⟩
  cases x with
  | memory x => exact congrArg some (x.format_create s now name entries)
  | database x => rfl

theorem interchangeable_delete (x : Index) (s : IndexStorage) (name : Text) :
    (x.delete s name).index.Interchangeable x := by
  refine ⟨(x.sameIndex_delete s name).symm, ?_⟩
  cases x with
  | memory x => exact congrArg (fun y => some y.format) (x.index_delete s name)
  | database x => rfl

/-- A load leaves an index set as it was, if what it may find is of the format of the index. -/
theorem interchangeable_load {x : Index} {s : IndexStorage}
    (h : ∀ format, x.format? = some format → ∃ j, format = .value j ∧ SavedAs (· = j) s)
    (path : Path) :
    (x.load s path).index.Interchangeable x := by
  refine ⟨(x.sameIndex_load s path).symm, ?_⟩
  cases x with
  | memory x =>
    obtain ⟨j, hformat, hsaved⟩ := h x.format rfl
    have hset : ∃ k, x.format = .value k ∧ k = j := ⟨j, hformat, rfl⟩
    obtain ⟨_, hloaded, rfl⟩ := MemoryIndex.format_load hset hsaved path
    exact congrArg some (hloaded.trans hformat.symm)
  | database x => rfl

end Index

end Concordance
