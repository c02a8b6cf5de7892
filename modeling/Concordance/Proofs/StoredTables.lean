import Concordance.Proofs.Reload

/-!
# Stored tables are of one piece

The tables of an index are stored as three files, one after the other. Wherever three
such files lie side by side they come from one save, also after saves that were broken
off: a save is broken off by a folder in the place of a file, which stays, or by an id
that cannot be written, and leaves a file that cannot be read. So tables that are all
loaded from one place fit together, if no two of their terms are read as one.
-/
namespace Concordance

namespace Tables

variable {a : Analyzer} {s s' : IndexStorage} {t : Tables}

/-- Wherever the three files of tables lie side by side, they are those of tables that represent
one collection and are read as they are, unless one of them is only begun. -/
def StoredWhole (a : Analyzer) (s : IndexStorage) : Prop :=
  ∀ (place : Path) (terms contents statistics : Content),
    s.node? (place.inside termsFile) = some (.file terms) →
    s.node? (place.inside contentsFile) = some (.file contents) →
    s.node? (place.inside statisticsFile) = some (.file statistics) →
      (∃ docs t form, Represents a docs t ∧ t.reread form = t ∧
        terms = .value form t.terms.toJson ∧
        contents = .value form (t.contents.write form.keys .str) ∧
        statistics = .value form (t.statistics.write form.keys)) ∨
      terms = .begun ∨ contents = .begun

/-- What a save writes of tables: all of them, or up to the first with an id that cannot be
written. -/
inductive WrittenFiles (t : Tables) (form : Form) : List (Text × Content) → Prop where
  | whole : WrittenFiles t form [(termsFile, .value form t.terms.toJson),
      (contentsFile, .value form (t.contents.write form.keys .str)),
      (statisticsFile, .value form (t.statistics.write form.keys))]
  | contents : WrittenFiles t form [(termsFile, .value form t.terms.toJson), (contentsFile, .begun)]
  | terms : WrittenFiles t form [(termsFile, .begun)]

variable {form : Form} {files : List (Text × Content)}

theorem WrittenFiles.nodup (h : WrittenFiles t form files) : (files.map Prod.fst).Nodup := by
  cases h with
  | whole =>
    show [termsFile, contentsFile, statisticsFile].Nodup
    decide
  | contents =>
    show [termsFile, contentsFile].Nodup
    decide
  | terms => exact List.nodup_singleton _

theorem writtenFiles_begun (t : Tables) (form : Form) (metadata : List (Text × Json)) :
    ∃ files, t.begunFiles form metadata =
        (metadataFile, .value .lines (.obj metadata)) :: files ∧ WrittenFiles t form files := by
  rw [begunFiles]
  split
  · exact ⟨_, rfl, .contents⟩
  · exact ⟨_, rfl, .terms⟩

/-- Where no terms are stored, nothing is stored in pieces. -/
theorem storedWhole_of_none (h : ∀ (place : Path) (content : Content),
    s.node? (place.inside termsFile) ≠ some (.file content)) :
    StoredWhole a s :=
  fun place terms _ _ hterms => absurd hterms (h place terms)

theorem StoredWhole.of_noNewFiles (h : StoredWhole a s) (hs : Storage.NoNewFiles s s') :
    StoredWhole a s' := by
  intro place terms contents statistics hterms hcontents hstatistics
  exact h place terms contents statistics (hs _ _ hterms) (hs _ _ hcontents) (hs _ _ hstatistics)

/-- A file of metadata is none of the files of tables. -/
theorem StoredWhole.put_metadata (h : StoredWhole a s) (place : Path) (content : Content) :
    StoredWhole a (s.put (place.inside metadataFile) (.file content)) := by
  intro place' terms contents statistics hterms hcontents hstatistics
  have hother {name : Text} (hname : name ≠ metadataFile) :
      (s.put (place.inside metadataFile) (.file content)).node? (place'.inside name) =
        s.node? (place'.inside name) := by
    rw [Storage.node?_put, if_neg fun heq => hname (Path.inside_inj heq).2]
  rw [hother (by decide)] at hterms hcontents hstatistics
  exact h place' terms contents statistics hterms hcontents hstatistics

theorem StoredWhole.putFiles_metadata (h : StoredWhole a s) (place : Path) (content : Content) :
    StoredWhole a (s.putFiles place [(metadataFile, content)]).1 := by
  simp only [Storage.putFiles]
  split
  · exact h
  · exact h.put_metadata place content

/-- The files of tables that represent a collection are stored whole, or the place of one of them
is taken by a folder. -/
theorem StoredWhole.put_tables (h : StoredWhole a s) {docs : Collection} (ht : Represents a docs t)
    (hsame : t.reread form = t) (hfiles : WrittenFiles t form files) (place : Path) :
    StoredWhole a (s.putFiles place files).1 := by
  intro place' terms contents statistics hterms hcontents hstatistics
  by_cases hplace : place' = place
  · subst hplace
    have hwritten : ∀ f ∈ files,
        (s.putFiles place' files).1.node? (place'.inside f.1) = some (.file f.2) := by
      obtain hwritten | ⟨f, hf, hfolder⟩ := Storage.putFiles_cases s place' files hfiles.nodup
      · exact hwritten
      · -- A folder lies in the place of one of the files, each of which is there.
        have hnone : ∀ name, name = termsFile ∨ name = contentsFile ∨ name = statisticsFile →
            (s.putFiles place' files).1.node? (place'.inside name) ≠ some .folder := by
          rintro name (rfl | rfl | rfl) hfound
          · cases hterms.symm.trans hfound
          · cases hcontents.symm.trans hfound
          · cases hstatistics.symm.trans hfound
        refine absurd hfolder (hnone f.1 ?_)
        cases hfiles <;> simp only [List.mem_cons, List.not_mem_nil, or_false] at hf
        · obtain rfl | rfl | rfl := hf <;> simp
        · obtain rfl | rfl := hf <;> simp
        · exact .inl (congrArg Prod.fst hf)
    cases hfiles with
    | whole =>
      rw [hwritten _ (.head _)] at hterms
      rw [hwritten _ (.tail _ (.head _))] at hcontents
      rw [hwritten _ (.tail _ (.tail _ (.head _)))] at hstatistics
      cases hterms
      cases hcontents
      cases hstatistics
      exact .inl ⟨docs, t, form, ht, hsame, rfl, rfl, rfl⟩
    | contents =>
      rw [hwritten _ (.tail _ (.head _))] at hcontents
      cases hcontents
      exact .inr (.inr rfl)
    | terms =>
      rw [hwritten _ (.head _)] at hterms
      cases hterms
      exact .inr (.inl rfl)
  · have hother (name : Text) :
        (s.putFiles place files).1.node? (place'.inside name) =
          s.node? (place'.inside name) :=
      Storage.node?_putFiles_of_ne fun f _ heq => hplace (Path.inside_inj heq).1
    rw [hother] at hterms hcontents hstatistics
    exact h place' terms contents statistics hterms hcontents hstatistics

/-- Of the files of a save, either all have paths that are not too long, or at most that of the
metadata has one: the terms come next, and no file has a longer name. -/
theorem WrittenFiles.fitting (h : WrittenFiles t form files) (content : Content) (folder : Path) :
    Storage.fitting folder ((metadataFile, content) :: files) = [] ∨
      Storage.fitting folder ((metadataFile, content) :: files) = [(metadataFile, content)] ∨
      Storage.fitting folder ((metadataFile, content) :: files) =
        (metadataFile, content) :: files := by
  rw [Storage.fitting, List.takeWhile_cons]
  cases folder.fits metadataFile with
  | false => exact .inl rfl
  | true =>
    cases hterms : folder.fits termsFile with
    | false => exact .inr (.inl (by cases h <;> simp [hterms]))
    | true =>
      have hcontents : folder.fits contentsFile = true :=
        Path.fits_of_length_le ⟨rfl, by decide⟩ ⟨rfl, by decide⟩ (by decide) hterms
      have hstatistics : folder.fits statisticsFile = true :=
        Path.fits_of_length_le ⟨rfl, by decide⟩ ⟨rfl, by decide⟩ (by decide) hterms
      exact .inr (.inr (by cases h <;> simp [hterms, hcontents, hstatistics]))

theorem StoredWhole.writeIn_metadata (h : StoredWhole a s) (folder : Path) (content : Content) :
    StoredWhole a (s.writeIn folder [(metadataFile, content)]).1 := by
  cases hplace : s.locate folder with
  | error e =>
    rw [Storage.writeIn, hplace]
    exact h
  | ok place =>
    rw [Storage.writeIn_eq hplace, Storage.fitting, List.takeWhile_cons]
    split
    · exact h.putFiles_metadata place content
    · exact h

/-- Saving the tables of a collection in a folder leaves what is stored whole, also where it
fails. -/
theorem StoredWhole.writeIn (h : StoredWhole a s) {docs : Collection} (ht : Represents a docs t)
    (hsame : t.reread form = t) (hfiles : WrittenFiles t form files) (folder : Path)
    (content : Content) :
    StoredWhole a (s.writeIn folder ((metadataFile, content) :: files)).1 := by
  cases hplace : s.locate folder with
  | error e =>
    rw [Storage.writeIn, hplace]
    exact h
  | ok place =>
    rw [Storage.writeIn_eq hplace]
    obtain hnone | hone | hall := hfiles.fitting content folder
    · rw [hnone]
      exact h
    · rw [hone]
      exact h.putFiles_metadata place _
    · rw [hall, Storage.putFiles]
      split
      · exact h
      · exact (h.put_metadata place _).put_tables ht hsame hfiles place

/-- What is read of a file of tables is what was stored in it, as it is read in its form, and a file
that is only begun is not read. -/
theorem saved_eq {folder : Path} {form : Form} {name : Text} {j : Json}
    (hname : Storage.IsName name) (h : saved s folder form name = .ok j) :
    ∃ place content, folder.names.foldlM s.enter ⟨folder.absolute, []⟩ = .ok place ∧
      s.node? (place.inside name) = some (.file content) ∧ content ≠ .begun ∧
        ∀ form' j', content = .value form' j' → j = form'.reread j' ∧ form.keys = form'.keys := by
  rw [saved, bind_eq_ok_iff] at h
  obtain ⟨content, hcontent, h⟩ := h
  obtain ⟨p, hp, hnode⟩ := Storage.node?_of_read hcontent
  obtain ⟨place, hplace, rfl⟩ := Storage.locate_child hname hp
  refine ⟨place, content, hplace, hnode, ?_, ?_⟩
  · rintro rfl
    cases form <;> cases h
  · rintro form' j' rfl
    exact Content.eq_of_read h

/-- Tables that are all loaded from where tables are stored whole are tables of a collection. -/
theorem StoredWhole.load (h : StoredWhole a s) {held held' : HeldTables} {folder : Path}
    {form : Form} (hload : held.load s folder form = (held', none)) :
    ∃ docs t, held' = .all t ∧ Represents a docs t := by
  obtain ⟨u, rfl, hterms, hcontents, hstatistics⟩ := HeldTables.load_eq_none_iff.mp hload
  rw [savedTerms, bind_eq_ok_iff] at hterms
  rw [savedContents, bind_eq_ok_iff] at hcontents
  rw [savedStatistics, bind_eq_ok_iff] at hstatistics
  obtain ⟨j₁, hsaved₁, hterms⟩ := hterms
  obtain ⟨j₂, hsaved₂, hcontents⟩ := hcontents
  obtain ⟨j₃, hsaved₃, hstatistics⟩ := hstatistics
  obtain ⟨place, content₁, hplace, hnode₁, hread₁, heq₁⟩ := saved_eq ⟨rfl, by decide⟩ hsaved₁
  obtain ⟨place₂, content₂, hplace₂, hnode₂, hread₂, heq₂⟩ := saved_eq ⟨rfl, by decide⟩ hsaved₂
  obtain ⟨place₃, content₃, hplace₃, hnode₃, -, heq₃⟩ := saved_eq ⟨rfl, by decide⟩ hsaved₃
  -- The three files lie side by side.
  rw [hplace] at hplace₂ hplace₃
  cases hplace₂
  cases hplace₃
  obtain ⟨docs, t, form', ht, hsame, h₁, h₂, h₃⟩ | hbegun | hbegun :=
    h place _ _ _ hnode₁ hnode₂ hnode₃
  · rw [(heq₁ _ _ h₁).1, InvertedIndex.ofJson_reread ht.sound] at hterms
    rw [(heq₂ _ _ h₂).1, (heq₂ _ _ h₂).2, DocumentStore.reread_write ht.restored_contents]
      at hcontents
    rw [(heq₃ _ _ h₃).1, (heq₃ _ _ h₃).2, CollectionStatistics.reread_write ht.restored_mean]
      at hstatistics
    have hcode : ∀ text : Text, (Json.str text).text = .ok text := fun _ => rfl
    refine ⟨docs, t, ?_, ht⟩
    rw [HeldTables.all, DocumentStore.eq_of_read_write hcode hcontents,
      CollectionStatistics.eq_of_read_write hstatistics, ← Except.ok.inj hterms]
    exact congrArg HeldTables.all hsame
  · exact absurd hbegun hread₁
  · exact absurd hbegun hread₂

end Tables

namespace MemoryIndex

open Tables (StoredWhole)

variable {a : Analyzer} {storage : IndexStorage}

theorem storedWhole_save (h : StoredWhole a storage) {docs : Collection} {t : Tables}
    (ht : Tables.Represents a docs t) (x : MemoryIndex) (hsame : t.reread x.format.form = t)
    (path : Path) : StoredWhole a (x.save t storage path).1 := by
  have hmade := h.of_noNewFiles (Storage.noNewFiles_makeFolders storage path)
  unfold save
  split
  · next made hfolders =>
    rw [hfolders] at hmade
    unfold saveIn
    split
    · next format hformat =>
      simp only
      split
      · exact hmade.writeIn_metadata path .begun
      · split
        · obtain ⟨files, hfiles, hwritten⟩ :=
            t.writtenFiles_begun x.format.form (x.metadata t format)
          rw [hfiles]
          exact hmade.writeIn ht hsame hwritten path _
        · exact hmade.writeIn ht hsame .whole path _
    · exact hmade.writeIn_metadata path .begun
  · exact hmade

theorem Cleared.noNewFiles {cleared : IndexStorage} (h : Cleared storage cleared) :
    Storage.NoNewFiles storage cleared := by
  obtain rfl | ⟨path, rfl⟩ := h
  · exact .refl _
  · exact Storage.noNewFiles_remove storage path

theorem storedWhole_build (x : MemoryIndex) (h : StoredWhole x.analyzer storage) (now : Text)
    (path : Path) {entries : List Json} (hterms : (Index.memory x).KeepsTerms entries) :
    StoredWhole x.analyzer (x.build storage now path entries).storage := by
  rw [build]
  split
  · exact h
  · next hstopped =>
    refine storedWhole_save h (represents_of_stopped hstopped) _ ?_ path
    exact Index.reread_built hstopped hterms

/-- A creation, also one that fails, leaves what is stored whole. -/
theorem storedWhole_create (x : MemoryIndex) (h : StoredWhole x.analyzer storage) (now : Text)
    (name : Json) {entries : List Json} (hterms : (Index.memory x).KeepsTerms entries) :
    StoredWhole x.analyzer (x.create storage now name entries).storage := by
  obtain ⟨cleared, e, hcleared, hfails⟩ | ⟨cleared, t, -, hcleared, hbuilds⟩ :=
    create_cases x storage now name
  · obtain ⟨log, hlog⟩ := hfails entries
    rw [hlog]
    exact h.of_noNewFiles hcleared.noNewFiles
  · obtain ⟨log, hlog⟩ := hbuilds entries
    rw [hlog]
    exact storedWhole_build { x with name := name } (h.of_noNewFiles hcleared.noNewFiles) now _
      hterms

theorem storedWhole_delete (x : MemoryIndex) (h : StoredWhole a storage) (name : Text) :
    StoredWhole a (x.delete storage name).storage := by
  unfold delete
  simp only
  split
  · exact h
  · exact h
  · exact h.of_noNewFiles (Storage.noNewFiles_remove storage _)

end MemoryIndex

end Concordance
