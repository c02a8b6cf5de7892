import Concordance.Proofs.Cleaning
import Concordance.Proofs.Saved
import Concordance.Proofs.Writing

/-!
# Loading undoes saving

An index that has been created is stored, and another index of its kind that loads it is
then the same index with other settings. The format in which tables are read is the one
in which they were saved, whatever the format is that the loading index writes.
-/
namespace Concordance

namespace Tables

variable {a : Analyzer} {docs : Collection} {t : Tables} {s : IndexStorage} {folder : Path}
  {form : Form} {metadata : List (Text × Json)}

/-- The names of the files in which an index in memory is saved. -/
def fileNames : List Text := [metadataFile, termsFile, contentsFile, statisticsFile]

theorem isFileName_of_mem {name : Text} (h : name ∈ fileNames) : Storage.IsFileName name := by
  simp only [fileNames, List.mem_cons, List.not_mem_nil, or_false] at h
  obtain rfl | rfl | rfl | rfl := h
  all_goals exact ⟨⟨rfl, by decide⟩, rfl, by decide⟩

theorem mem_fileNames {t : Tables} {form : Form} {metadata : List (Text × Json)}
    {f : Text × Content} (hf : f ∈ t.files form metadata) : f.1 ∈ fileNames :=
  List.mem_map_of_mem (f := Prod.fst) hf

theorem nodup_fileNames : fileNames.Nodup := by decide

theorem read_of_writeIn (hwritten : (s.writeIn folder (t.files form metadata)).2 = none)
    {f : Text × Content} (hf : f ∈ t.files form metadata) :
    (s.writeIn folder (t.files form metadata)).1.read (folder.child f.1) = .ok f.2 :=
  Storage.read_of_writeIn (fun _ hg => isFileName_of_mem (mem_fileNames hg)) nodup_fileNames
    hwritten hf

theorem saved_of_read {name : Text} {j : Json}
    (hread : s.read (folder.child name) = .ok (.value form j)) :
    saved s folder form name = .ok (form.reread j) := by
  rw [saved, hread, ok_bind]
  cases form <;> rfl

/-- The tables as they are read where they were saved in a form. -/
def reread (form : Form) (t : Tables) : Tables := { t with terms := t.terms.reread form }

theorem Represents.restored_contents (h : Represents a docs t) :
    ∀ e ∈ t.contents.contents.entries, (Json.str e.2).restored = .str e.2 := by
  rintro ⟨doc, text⟩ he
  rw [h.contents, Table.mem_entries_iff] at he
  rw [Json.restored_str, paired_of_hasPair_eq_false (h.texts doc text he)]

theorem Represents.restored_mean (h : Represents a docs t) :
    t.statistics.mean.restored = t.statistics.mean := by
  obtain ⟨x, hx⟩ := h.mean
  rw [hx]
  rfl

section Loading

variable (hread : ∀ f ∈ t.files form metadata, s.read (folder.child f.1) = .ok f.2)
  (ht : Represents a docs t)

include hread ht

theorem savedTerms_eq : savedTerms s folder form = .ok (t.terms.reread form) := by
  rw [savedTerms, saved_of_read (hread _ (.tail _ (.head _))), ok_bind,
    InvertedIndex.ofJson_reread ht.sound]

theorem savedContents_eq : savedContents s folder form =
    DocumentStore.read form.keys Json.text (t.contents.write form.keys .str) := by
  rw [savedContents, saved_of_read (hread _ (.tail _ (.tail _ (.head _)))), ok_bind,
    DocumentStore.reread_write ht.restored_contents]

theorem savedStatistics_eq : savedStatistics s folder form =
    CollectionStatistics.read form.keys (t.statistics.write form.keys) := by
  rw [savedStatistics, saved_of_read (hread _ (.tail _ (.tail _ (.tail _ (.head _))))), ok_bind,
    CollectionStatistics.reread_write ht.restored_mean]

/-- Tables of a collection are loaded where they are saved, if the ids in them can be written. -/
theorem load_of_read (htakes : form.takes t.contents.contents.keys = true) (held : HeldTables) :
    held.load s folder form = (.all (t.reread form), none) := by
  have hkeeps : ∀ doc ∈ docs.keys, form.keys.Keeps doc := by
    rw [ht.contents, Form.takes, Bool.or_eq_true, List.all_eq_true] at htakes
    intro doc hdoc
    obtain hbinary | hall := htakes
    · rw [of_decide_eq_true hbinary]
      trivial
    · cases form with
      | binary => trivial
      | line => exact hall doc hdoc
      | lines => exact hall doc hdoc
  have hcontents : savedContents s folder form = .ok t.contents := by
    have hcode : ∀ text : Text, (Json.str text).text = .ok text := fun _ => rfl
    rw [savedContents_eq hread ht]
    refine DocumentStore.read_write hcode fun e he => ?_
    rw [ht.contents] at he
    exact hkeeps e.1 (List.mem_map_of_mem he)
  have hstatistics : savedStatistics s folder form = .ok t.statistics := by
    rw [savedStatistics_eq hread ht]
    refine CollectionStatistics.read_write fun e he => ?_
    rw [ht.lengths, List.mem_map] at he
    obtain ⟨document, hdocument, rfl⟩ := he
    exact hkeeps document.1 (List.mem_map_of_mem hdocument)
  exact HeldTables.load_eq_none_iff.mpr
    ⟨t.reread form, rfl, savedTerms_eq hread ht, hcontents, hstatistics⟩

/-- Tables that are loaded where tables are saved are these tables as they are read. -/
theorem eq_of_load {held loaded : HeldTables}
    (hload : held.load s folder form = (loaded, none)) : loaded = .all (t.reread form) := by
  obtain ⟨u, rfl, hterms, hcontents, hstatistics⟩ := HeldTables.load_eq_none_iff.mp hload
  rw [savedTerms_eq hread ht] at hterms
  rw [savedContents_eq hread ht] at hcontents
  rw [savedStatistics_eq hread ht] at hstatistics
  have hcode : ∀ text : Text, (Json.str text).text = .ok text := fun _ => rfl
  rw [HeldTables.all, DocumentStore.eq_of_read_write hcode hcontents,
    CollectionStatistics.eq_of_read_write hstatistics, ← Except.ok.inj hterms]
  rfl

end Loading

end Tables

/-- The tables that are held as they are read where they were saved in a form. -/
def HeldTables.reread (form : Form) (held : HeldTables) : HeldTables :=
  { held with terms := held.terms.map (·.reread form) }

namespace TableFormat

/-- The format as it is read where it was saved. -/
def restored : TableFormat → TableFormat
  | value j => value j.restored
  | part => part

/-- Tables are read in the form in which they were saved. -/
theorem form_restored (format : TableFormat) : format.restored.form = format.form := by
  cases format with
  | part => rfl
  | value j =>
    cases j with
    | str t =>
      have hjson : paired t = "json".toText ↔ t = "json".toText := by
        constructor
        · intro h
          rw [← h]
          refine (paired_of_hasPair_eq_false (hasPair_eq_false_of_paired fun c hc => ?_)).symm
          rw [h] at hc
          revert c
          decide
        · rintro rfl
          exact paired_toText "json"
      simp only [restored, Json.restored_str, form, hjson]
    | _ => rfl

end TableFormat

namespace MemoryIndex

variable {x y : MemoryIndex} {storage stored : IndexStorage} {path : Path}

def withSettings (x : MemoryIndex) (a : Analyzer) (home : Path) : MemoryIndex :=
  { x with analyzer := a, home := home }

/-- The index as it is loaded where it has been saved. -/
def reread (x : MemoryIndex) : MemoryIndex :=
  { x with tables := x.tables.reread x.format.form, format := x.format.restored }

/-- What a saving that succeeds has done: all files have been written into a folder that is there,
and the ids in the tables can be written. -/
theorem save_eq_none {t : Tables} (h : x.save t storage path = (stored, none)) :
    ∃ made format, storage.makeFolders path = (made, none) ∧ x.format = .value format ∧
      x.format.form.takes t.contents.contents.keys = true ∧
      made.writeIn path (t.files x.format.form (x.metadata t format)) = (stored, none) := by
  rw [save] at h
  split at h
  · next made hmade =>
    have hbroken (files : List (Text × Content)) (reason : Failure) :
        breakOff made path files reason ≠ (stored, none) :=
      fun h => breakOff_ne_none made path files reason (congrArg Prod.snd h)
    rw [saveIn] at h
    split at h
    · next format hformat =>
      simp only at h
      split at h
      · exact absurd h (hbroken _ _)
      · split at h
        · exact absurd h (hbroken _ _)
        · next htakes => exact ⟨made, format, hmade, hformat, by simpa using htakes, h⟩
    · exact absurd h (hbroken _ _)
  · next hfailed => exact absurd h (hfailed stored)

theorem isMoment_ne_nil {now : Text} (h : Moment.isMoment now = true) : now ≠ [] := by
  rintro rfl
  contradiction

theorem restored_metadata (x : MemoryIndex) (t : Tables) (format : Json) :
    (Json.obj (x.metadata t format)).restored =
      .obj ((x.metadata t format).map fun m => (m.1, m.2.restored)) := by
  refine Json.restored_obj_of_names ?_ ?_
  · simp [metadata]
  · show ["index_name".toText, "document_count".toText, "vocabulary_size".toText,
      "created_at".toText, "format".toText, "stemmer".toText].Nodup
    decide

/-- Metadata give back what an index has kept of itself beside its tables. -/
theorem restore_metadata {t t' : Tables} {format : Json} {name now : Text} {count : Int}
    (hload : y.tables.load stored path (TableFormat.value format.restored).form =
      (.all t', none))
    (hname : x.name = .str name) (hplain : hasPair name = false)
    (hcount : x.documentCount = .int count) (hcreated : x.created = some now)
    (hnow : Moment.isMoment now = true) :
    ∃ log, y.restore stored path (Json.obj (x.metadata t format)).restored =
      ({ x.withSettings y.analyzer y.home with
        tables := .all t', format := .value format.restored }, .ok log) := by
  have hmoment : momentOf (.str now) = .ok (some now) := by
    cases now with
    | nil => exact absurd rfl (isMoment_ne_nil hnow)
    | cons c rest => simp [momentOf, Json.isEmpty, hnow]
  have hfound : ∀ metadata,
      metadata = Json.obj ((x.metadata t format).map fun m => (m.1, m.2.restored)) →
        metadata.field "index_name".toText = .ok x.name ∧
        metadata.field "document_count".toText = .ok x.documentCount ∧
        Json.find? "format".toText metadata.members = some format.restored ∧
        Json.find? "created_at".toText metadata.members = some (.str now) := by
    rintro metadata rfl
    have hnow' : ((x.created.map Json.str).getD .null).restored = .str now := by
      rw [hcreated]
      exact congrArg Json.str (paired_of_hasPair_eq_false (Moment.hasPair_of_isMoment hnow))
    have hname' : x.name.restored = x.name := by
      rw [hname, Json.restored_str, paired_of_hasPair_eq_false hplain]
    have hcount' : x.documentCount.restored = x.documentCount := by
      rw [hcount]
      rfl
    exact ⟨congrArg Except.ok hname', congrArg Except.ok hcount', rfl, congrArg some hnow'⟩
  obtain ⟨hindex, hcounted, hformat, hmade⟩ := hfound _ (restored_metadata x t format)
  simp only [restore, hindex, hcounted, hformat, hmade, Option.map_some, Option.getD_some, hmoment,
    hload]
  rw [withSettings, hcreated]
  exact ⟨_, rfl⟩

/-- All files of an index that has been saved are read in its folder. -/
theorem read_of_save {t : Tables} (h : x.save t storage path = (stored, none)) :
    stored.contains path = .ok true ∧ ∃ format, x.format = .value format ∧
      x.format.form.takes t.contents.contents.keys = true ∧
      ∀ f ∈ t.files x.format.form (x.metadata t format),
        stored.read (path.child f.1) = .ok f.2 := by
  obtain ⟨made, format, hmade, hformat, htakes, hwritten⟩ := save_eq_none h
  have hok : (made.writeIn path (t.files x.format.form (x.metadata t format))).2 = none := by
    rw [hwritten]
  have hthere : (made.writeIn path (t.files x.format.form (x.metadata t format))).1.contains path =
      .ok true := by
    obtain ⟨place, hplace, -⟩ := Storage.writeIn_eq_none_iff.mp hok
    exact Storage.contains_of_writeIn (Storage.contains_of_makeFolders hmade hplace)
  have hread := fun f hf => Tables.read_of_writeIn (f := f) hok hf
  rw [hwritten] at hthere hread
  exact ⟨hthere, format, hformat, htakes, hread⟩

/-- The metadata of an index are read where it is saved. -/
theorem metadataIn_of_read {t : Tables} {form : Form} {format : Json}
    (hread : ∀ f ∈ t.files form (x.metadata t format), stored.read (path.child f.1) = .ok f.2) :
    metadataIn stored path = .ok (Json.obj (x.metadata t format)).restored := by
  rw [metadataIn, hread _ (.head _), ok_bind]
  rfl

/-- An index that has been saved in a folder is loaded from it, also by an index with another
format. -/
theorem load_of_save {docs : Collection} {t : Tables} {name now : Text} {count : Int}
    (hsaved : x.save t storage (x.home.child name) = (stored, none)) (htables : x.tables = .all t)
    (hname : x.name = .str name) (hcount : x.documentCount = .int count)
    (hcreated : x.created = some now) (hnow : Moment.isMoment now = true)
    (ht : Tables.Represents x.analyzer docs t) (y : MemoryIndex) :
    ∃ log, y.load stored (x.home.child name) =
      ⟨x.reread.withSettings y.analyzer y.home, stored, log, none⟩ := by
  obtain ⟨hthere, format, hformat, htakes, hread⟩ := read_of_save hsaved
  have hplain : hasPair name = false := by
    rw [Storage.contains] at hthere
    cases hplace : stored.locate (x.home.child name) with
    | error e =>
      rw [hplace] at hthere
      cases e <;> cases hthere
    | ok place => exact Path.hasPair_of_not_isForbidden (Storage.locate_eq_ok_iff.mp hplace).1
  have hload : y.tables.load stored (x.home.child name) (TableFormat.value format.restored).form =
      (.all (t.reread x.format.form), none) := by
    have hform : (TableFormat.value format.restored).form = x.format.form := by
      rw [hformat]
      exact TableFormat.form_restored (.value format)
    rw [hform]
    exact Tables.load_of_read hread ht htakes y.tables
  obtain ⟨log, hrestore⟩ :=
    restore_metadata (t := t) hload hname hplain hcount hcreated hnow
  refine ⟨log, ?_⟩
  simp only [load, hthere, metadataIn_of_read hread, hrestore]
  rw [reread, htables, hformat]
  rfl

/-- An index that succeeds to load where tables are saved holds these tables then, as they are
read. -/
theorem tables_of_load {a : Analyzer} {docs : Collection} {t : Tables} {format : Json}
    (hread : ∀ f ∈ t.files (TableFormat.value format).form (x.metadata t format),
      stored.read (path.child f.1) = .ok f.2)
    (ht : Tables.Represents a docs t) (h : (y.load stored path).failure = none) :
    (y.load stored path).index.tables = .all (t.reread (TableFormat.value format).form) := by
  obtain ⟨log, e, heq⟩ | ⟨metadata, z, hmetadata, ⟨log, hrestore, heq⟩ | ⟨e, -, heq⟩⟩ :=
    y.load_cases stored path
  · rw [heq] at h
    contradiction
  · rw [metadataIn_of_read hread] at hmetadata
    cases hmetadata
    have hload := tables_load_of_restore hrestore
    rw [restored_metadata] at hload
    have hform : (TableFormat.value format.restored).form = (TableFormat.value format).form :=
      TableFormat.form_restored (.value format)
    change y.tables.load stored path (TableFormat.value format.restored).form = _ at hload
    rw [hform] at hload
    rw [heq]
    exact Tables.eq_of_load hread ht hload
  · rw [heq] at h
    contradiction

section Creation

variable {now name : Text} {entries : List Json}

/-- What is left of a creation that succeeds: the index has saved its tables in the folder of its
name, which had been emptied. -/
theorem saved_create (h : (x.create storage now (.str name) entries).failure = none) :
    let created := x.create storage now (.str name) entries
    created.index.format = x.format ∧ created.index.created = some now ∧
      created.index.name = .str name ∧ (∃ count, created.index.documentCount = .int count) ∧
      ∃ cleared, storage.Emptied (x.home.child name) cleared ∧
        created.index.save (Ingestion.ingest (addDocument x.analyzer) .empty entries).built cleared
          (x.home.child name) = (created.storage, none) := by
  intro created
  obtain ⟨hstopped, -⟩ := ingested_of_create h
  obtain ⟨cleared, t, hname, hcleared, hbuilds⟩ := exists_build h
  cases hname
  obtain ⟨log, hlog⟩ := hbuilds entries
  have hcreated : created = _ := hlog
  rw [hlog] at h
  rw [hcreated]
  simp only [build, hstopped] at h ⊢
  exact ⟨trivial, trivial, trivial, ⟨_, rfl⟩, cleared, hcleared, Prod.ext rfl h⟩

/-- An index that has been created is loaded again. -/
theorem load_create (h : (x.create storage now (.str name) entries).failure = none)
    (hnow : Moment.isMoment now = true) (y : MemoryIndex) :
    ∃ log, y.load (x.create storage now (.str name) entries).storage (x.home.child name) =
      ⟨(x.create storage now (.str name) entries).index.reread.withSettings y.analyzer y.home,
        (x.create storage now (.str name) entries).storage, log, none⟩ := by
  obtain ⟨-, hcreated, hname, ⟨count, hcount⟩, cleared, -, hsaved⟩ := saved_create h
  have hhome : (x.create storage now (.str name) entries).index.home = x.home :=
    congrArg Prod.snd (x.settings_create storage now (.str name) entries)
  rw [← hhome] at hsaved ⊢
  have hrep : Tables.Represents (x.create storage now (.str name) entries).index.analyzer
      (Ingestion.accepted .empty entries)
      (Ingestion.ingest (addDocument x.analyzer) .empty entries).built := by
    rw [analyzer_create]
    exact represents_of_stopped (ingested_of_create h).1
  exact load_of_save hsaved (create_tables h) hname hcount hcreated hnow hrep y

end Creation

end MemoryIndex

namespace DatabaseIndex

variable {x y : DatabaseIndex} {storage : IndexStorage} {path : Path}

def withSettings (x : DatabaseIndex) (a : Analyzer) (home : Path) : DatabaseIndex :=
  { x with analyzer := a, home := home }

/-- A complete database that has been written where one was opened is loaded. -/
theorem load_of_opened {cleared : IndexStorage} (h : Opened path cleared storage) {db : Database}
    {c : Json} (hc : db.catalogue? = some c) (y : DatabaseIndex) :
    y.load (storage.writeIn path [(databaseFile, .database db)]).1 path =
      ⟨{ y with opened := some db, path := some path, catalogue := c },
        (storage.writeIn path [(databaseFile, .database db)]).1, [], none⟩ := by
  obtain ⟨made, hmade, hopened⟩ := h
  have hok : (made.writeIn path [(databaseFile, .database .empty)]).2 = none := by rw [hopened]
  have hstorage : (made.writeIn path [(databaseFile, .database .empty)]).1 = storage := by
    rw [hopened]
  have hthere : (storage.writeIn path [(databaseFile, .database db)]).1.contains path =
      .ok true := by
    obtain ⟨place, hplace, -⟩ := Storage.writeIn_eq_none_iff.mp hok
    refine Storage.contains_of_writeIn ?_
    rw [← hstorage]
    exact Storage.contains_of_writeIn (Storage.contains_of_makeFolders hmade hplace)
  have hread : (storage.writeIn path [(databaseFile, .database db)]).1.read
      (path.child databaseFile) = .ok (.database db) := by
    have hagain : (storage.writeIn path [(databaseFile, .database db)]).2 = none := by
      rw [← hstorage]
      exact Storage.writeIn_again hok rfl
    refine Storage.read_of_writeIn (fun f hf => ?_) (by simp) hagain (.head _)
    have hname : f.1 = databaseFile := congrArg Prod.fst (List.mem_singleton.mp hf)
    rw [hname]
    exact ⟨⟨rfl, by decide⟩, rfl, by decide⟩
  exact load_of_read hthere hread hc y

/-- A folder in which a database has been opened has a name without pairs. -/
theorem Opened.hasPair {home : Path} {name : Text} {cleared : IndexStorage}
    (h : Opened (home.child name) cleared storage) : hasPair name = false := by
  obtain ⟨made, -, hopened⟩ := h
  have hok : (made.writeIn (home.child name) [(databaseFile, .database .empty)]).2 = none := by
    rw [hopened]
  obtain ⟨place, hplace, -⟩ := Storage.writeIn_eq_none_iff.mp hok
  exact Path.hasPair_of_not_isForbidden (Storage.locate_eq_ok_iff.mp hplace).1

theorem hasPair_name (s : Stemmer) : hasPair s.name = false := by
  rw [Stemmer.name]
  cases s.kind <;> exact hasPair_toText _

/-- A complete database tells of itself what it was described by. -/
theorem catalogue?_describe (d : Draft) {name : Text} (hname : hasPair name = false)
    (s : Stemmer) : (d.complete (d.describe name s.name)).catalogue? =
      some (d.describe name s.name).toJson := by
  rw [Draft.catalogue?_complete,
    Catalogue.restored_toJson (c := d.describe name s.name) hname (hasPair_name s)]

/-- An index that has been created is loaded again. -/
theorem load_create {name : Text} {entries : List Json}
    (h : (x.create storage (.str name) entries).failure = none) (y : DatabaseIndex) :
    y.load (x.create storage (.str name) entries).storage (x.home.child name) =
      ⟨(x.create storage (.str name) entries).index.withSettings y.analyzer y.home,
        (x.create storage (.str name) entries).storage, [], none⟩ := by
  obtain ⟨t, cleared, opened, hname, -, hopened, hfills⟩ := exists_fill h
  cases hname
  obtain ⟨log, hlog⟩ := hfills entries
  rw [hlog] at h ⊢
  simp only [fill] at h ⊢
  cases hstopped : (Ingestion.ingest (addDocument (x.close.towards name).analyzer) .empty
      entries).stopped with
  | some e => simp [hstopped] at h
  | none => exact load_of_opened hopened (catalogue?_describe _ hopened.hasPair _) y

end DatabaseIndex

namespace Index

open Ingestion (documentOf firstText)

/-- An index with other settings, but with all that it holds. -/
def withSettings (x : Index) (a : Analyzer) (home : Path) : Index :=
  match x with
  | memory x => .memory (x.withSettings a home)
  | database x => .database (x.withSettings a home)

/-- The index as it is loaded where it has been stored. -/
def reread : Index → Index
  | memory x => .memory x.reread
  | database x => .database x

/-- The index with its format as it is read where it was stored. -/
def formatRestored : Index → Index
  | memory x => .memory { x with format := x.format.restored }
  | database x => .database x

@[simp] theorem view_formatRestored (x : Index) : x.formatRestored.view = x.view := by
  cases x <;> rfl

@[simp] theorem view_withSettings (x : Index) (a : Analyzer) (home : Path) :
    (x.withSettings a home).view = x.view := by
  cases x <;> rfl

@[simp] theorem analyzer_withSettings (x : Index) (a : Analyzer) (home : Path) :
    (x.withSettings a home).analyzer = a := by
  cases x <;> rfl

/-- The figures that an index gives of itself. -/
def figures : Index → List (Text × Json)
  | memory x => x.statistics
  | database x => x.metadata

theorem figures_formatRestored (x : Index) (home : Path) :
    (x.formatRestored.withSettings x.analyzer home).figures = x.figures := by
  cases x <;> rfl

/-- The terms of an index that is created of entries are read as they are written: no text has a
term with a pair, or they are written in no text. -/
def KeepsTerms (x : Index) (entries : List Json) : Prop :=
  match x with
  | memory m => m.format.form = .binary ∨ ∀ doc text, firstText entries doc = some text →
      ∀ term ∈ m.analyzer.terms text, hasPair term = false
  | database _ => True

variable {x y : Index} {storage : IndexStorage} {now name : Text} {entries : List Json}

/-- Terms are kept where no document has a term with a pair. -/
theorem keepsTerms_of_forall (h : ∀ d ∈ entries.filterMap documentOf,
    ∀ term ∈ x.analyzer.terms d.2, hasPair term = false) : x.KeepsTerms entries := by
  cases x with
  | memory m =>
    refine .inr fun doc text htext => ?_
    obtain ⟨before, after, hdocuments, -⟩ := List.lookup_eq_some_iff.mp htext
    exact h (doc, text) (by simp [hdocuments])
  | database x => trivial

theorem load_eq_create (hkind : x.SameKind y)
    (h : (x.create storage now (.str name) entries).failure = none)
    (hnow : Moment.isMoment now = true) :
    ∃ log, y.load (x.create storage now (.str name) entries).storage (x.home.child name) =
      ⟨(x.create storage now (.str name) entries).index.reread.withSettings y.analyzer y.home,
        (x.create storage now (.str name) entries).storage, log, none⟩ := by
  cases hkind with
  | memory x y =>
    obtain ⟨log, hlog⟩ := MemoryIndex.load_create h hnow y
    exact ⟨log, congrArg (Outcome.map Index.memory) hlog⟩
  | database x y => exact ⟨[], congrArg (Outcome.map Index.database) (x.load_create h y)⟩

/-- Tables whose terms are kept are the same when they are read. -/
theorem reread_built {x : MemoryIndex}
    (hstopped : (Ingestion.ingest (MemoryIndex.addDocument x.analyzer) .empty
      entries).stopped = none)
    (hterms : (memory x).KeepsTerms entries) :
    (Ingestion.ingest (MemoryIndex.addDocument x.analyzer) .empty entries).built.reread
        x.format.form =
      (Ingestion.ingest (MemoryIndex.addDocument x.analyzer) .empty entries).built := by
  obtain ⟨before, -, -, hall⟩ := MemoryIndex.represents_built x.analyzer entries
  have hrep := MemoryIndex.represents_of_stopped hstopped
  rw [Tables.reread, InvertedIndex.reread_eq_self]
  refine hterms.imp_right fun hterms term hterm => ?_
  obtain ⟨doc, hdoc⟩ := hrep.sound.mem_keys.mp hterm
  obtain ⟨text, htext, hmem⟩ := Collection.mem_having.mp (hrep.mem_docSet.mp hdoc)
  rw [Ingestion.get?_accepted (hall hstopped).2, Table.get?_empty, Option.none_or] at htext
  exact hterms doc text htext term hmem

theorem tables_reread_create {x : MemoryIndex}
    (h : (x.create storage now (.str name) entries).failure = none)
    (hterms : (memory x).KeepsTerms entries) :
    (x.create storage now (.str name) entries).index.reread.tables =
      (x.create storage now (.str name) entries).index.tables := by
  obtain ⟨hformat, -⟩ := MemoryIndex.saved_create h
  have hsame := reread_built (MemoryIndex.ingested_of_create h).1 hterms
  have hdistributes (form : Form) (t : Tables) :
      HeldTables.reread form (.all t) = .all (t.reread form) := rfl
  show HeldTables.reread _ _ = _
  rw [MemoryIndex.create_tables h, hformat, hdistributes, hsame]

/-- An index whose terms are kept is the same when it is loaded, but for the name of its format. -/
theorem reread_create (h : (x.create storage now (.str name) entries).failure = none)
    (hterms : x.KeepsTerms entries) :
    (x.create storage now (.str name) entries).index.reread =
      (x.create storage now (.str name) entries).index.formatRestored := by
  cases x with
  | memory x =>
    have htables := tables_reread_create h hterms
    exact congrArg (fun tables => Index.memory
      { (x.create storage now (.str name) entries).index.reread with tables := tables }) htables
  | database x => rfl

theorem index_load (hkind : x.SameKind y)
    (h : (x.create storage now (.str name) entries).failure = none)
    (hnow : Moment.isMoment now = true) (hterms : x.KeepsTerms entries) :
    (y.load (x.create storage now (.str name) entries).storage (x.home.child name)).index =
      (x.create storage now (.str name) entries).index.formatRestored.withSettings y.analyzer
        y.home := by
  obtain ⟨log, hlog⟩ := load_eq_create hkind h hnow
  rw [hlog, reread_create h hterms]

theorem view_load (hkind : x.SameKind y)
    (h : (x.create storage now (.str name) entries).failure = none)
    (hnow : Moment.isMoment now = true) (hterms : x.KeepsTerms entries) :
    (y.load (x.create storage now (.str name) entries).storage (x.home.child name)).index.view =
      (x.create storage now (.str name) entries).index.view := by
  rw [index_load hkind h hnow hterms, view_withSettings, view_formatRestored]

end Index

end Concordance
