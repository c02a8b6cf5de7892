import Concordance.Index.MemoryIndex
import Concordance.Proofs.Collection
import Concordance.Proofs.InvertedIndex
import Concordance.Proofs.RestoredValues
import Concordance.Proofs.Storage

/-!
# What an index in memory holds

The three tables of an index represent a collection when they agree with it on the
contents, the lengths and the frequencies of its documents. Taking in a document
keeps this, so an index that has been created answers as its collection does. No
operation changes what an index is set to, and loading changes nothing that is stored.
-/
namespace Concordance

namespace CollectionStatistics

theorem divide_ne_lengthRecorded (m n doc : Int) :
    Amount.divide m n ≠ .error (.lengthRecorded doc) := by
  show (ratio m n).map Dyadic.toFloat ≠ _
  unfold ratio
  split <;> simp [Except.map]

/-- The length of a document that has none yet is recorded, and counted once. All that can fail is
the mean. -/
theorem record_of_new {s : CollectionStatistics Int} {doc : Int} (h : s.lengths.get? doc = none)
    (n : Int) :
    ∃ mean failure,
      s.record doc n = (⟨s.documents + 1, s.words + n, mean, s.lengths.set doc n⟩, failure) ∧
        (∀ d, failure ≠ some (.lengthRecorded d)) ∧ (mean = s.mean ∨ ∃ x, mean = .float x) := by
  have hnew : s.lengths.contains doc = false := Table.contains_eq_false_iff.mpr h
  rw [record, hnew, if_neg Bool.false_ne_true]
  show ∃ mean failure,
    withMean ⟨s.documents + 1, s.words + n, s.mean, s.lengths.set doc n⟩ = _ ∧ _ ∧ _
  unfold withMean
  cases hmean : (Amount.divide (s.words + n) (s.documents + 1) : Except Failure Float) with
  | ok mean => exact ⟨_, _, rfl, by simp, .inr ⟨mean, rfl⟩⟩
  | error e =>
    refine ⟨_, _, rfl, fun d hd => ?_, .inl rfl⟩
    rw [Option.some.inj hd] at hmean
    exact divide_ne_lengthRecorded _ _ _ hmean

end CollectionStatistics

namespace Tables

/-- The tables with one more document, whose id is free. -/
def grow (t : Tables) (doc : Int) (text : Text) (terms : List Text) : Tables :=
  ⟨t.terms.add doc terms, ⟨t.contents.contents.set doc text⟩,
    (t.statistics.record doc terms.length).1⟩

/-- The tables take in a document whose id is free in all of them. -/
theorem add_of_free {t : Tables} {doc : Int} (hcontents : t.contents.contents.get? doc = none)
    (hlengths : t.statistics.lengths.get? doc = none) (text : Text) (terms : List Text) :
    t.add doc text terms = (t.grow doc text terms, none) := by
  obtain ⟨mean, failure, hrecord, hfailure, -⟩ :=
    CollectionStatistics.record_of_new hlengths (terms.length : Int)
  rw [add, DocumentStore.add, Table.contains_eq_false_iff.mpr hcontents, grow, hrecord]
  -- No length is recorded for the document, which `hfailure` says of the failure.
  simp only [Bool.false_eq_true, if_false]

theorem add_of_taken {t : Tables} {doc : Int} (h : t.contents.contents.get? doc ≠ none)
    (text : Text) (terms : List Text) :
    t.add doc text terms = (t, some (.documentExists doc)) := by
  rw [add, DocumentStore.add, if_pos (Table.contains_iff_ne_none.mpr h)]

/-- The tables hold the documents of a collection, as they are analysed. -/
structure Represents (a : Analyzer) (docs : Collection) (t : Tables) : Prop where
  contents : t.contents.contents = docs
  /-- No text has a pair, which would be lost where texts are written and read. -/
  texts : ∀ doc text, docs.get? doc = some text → hasPair text = false
  lengths : t.statistics.lengths.entries =
    docs.entries.map fun e => (e.1, ((a.terms e.2).length : Int))
  documents : t.statistics.documents = docs.size
  words : t.statistics.words = Collection.words a docs
  mean : ∃ x, t.statistics.mean = .float x
  sound : t.terms.Sound
  frequency : ∀ term doc, t.terms.frequency term doc = Collection.frequency a docs term doc
  terms_documents : t.terms.documents = docs.size
  terms_words : t.terms.words = Collection.words a docs

theorem represents_empty (a : Analyzer) : Represents a .empty .empty where
  contents := rfl
  texts _ _ h := by cases h
  lengths := rfl
  documents := rfl
  words := rfl
  mean := ⟨_, rfl⟩
  sound := InvertedIndex.sound_empty
  frequency _ _ := rfl
  terms_documents := rfl
  terms_words := rfl

namespace Represents

variable {a : Analyzer} {docs : Collection} {t : Tables}

theorem length? (h : Represents a docs t) (doc : Int) :
    t.statistics.lengths.get? doc =
      (docs.get? doc).map fun text => ((a.terms text).length : Int) :=
  Table.get?_of_entries_map h.lengths doc

theorem length?_of_free (h : Represents a docs t) {doc : Int} (hfree : docs.get? doc = none) :
    t.statistics.lengths.get? doc = none := by
  rw [h.length?, hfree]
  rfl

theorem grow (h : Represents a docs t) {doc : Int} (hfree : docs.get? doc = none) {text : Text}
    (htext : hasPair text = false) :
    Represents a (docs.set doc text) (t.grow doc text (a.terms text)) := by
  have hlength := h.length?_of_free hfree
  obtain ⟨mean, failure, hrecord, -, hmean⟩ :=
    CollectionStatistics.record_of_new hlength ((a.terms text).length : Int)
  rw [Tables.grow, hrecord]
  constructor
  · change t.contents.contents.set doc text = docs.set doc text
    rw [h.contents]
  · intro d t hd
    rw [Table.get?_set] at hd
    split at hd
    · cases hd
      exact htext
    · exact h.texts d t hd
  · rw [Table.entries_set_of_new hlength, Table.entries_set_of_new hfree, h.lengths,
      List.map_append]
    rfl
  · rw [Table.size_set_of_new hfree, h.documents]
    rfl
  · rw [Collection.words_set hfree, h.words]
    rfl
  · obtain rfl | ⟨x, rfl⟩ := hmean
    · exact h.mean
    · exact ⟨x, rfl⟩
  · exact h.sound.add doc (a.terms text)
  · intro term d
    rw [h.sound.frequency_add, h.frequency, Collection.frequency_set hfree]
    split <;> simp
  · change t.terms.documents + 1 = _
    rw [Table.size_set_of_new hfree, h.terms_documents]
    rfl
  · change t.terms.words + ((a.terms text).length : Int) = _
    rw [Collection.words_set hfree, h.terms_words]
    rfl

theorem mem_docSet (h : Represents a docs t) {term : Text} {doc : Int} :
    doc ∈ t.terms.docSet term ↔ doc ∈ Collection.having a docs term := by
  rw [← h.sound.frequency_pos, h.frequency, ← Collection.frequency_pos]
  omega

theorem docSet (h : Represents a docs t) (term : Text) :
    t.terms.docSet term = .ofList (Collection.having a docs term) := by
  apply DocSet.ext
  intro d
  rw [h.mem_docSet, DocSet.mem_ofList]

theorem documentFrequency (h : Represents a docs t) (term : Text) :
    t.terms.documentFrequency term = (Collection.having a docs term).length := by
  rw [h.sound.documentFrequency_eq_length]
  have hn : (t.terms.docSet term).ids.Nodup :=
    (t.terms.docSet term).increasing.imp fun hlt => by omega
  exact Collection.length_eq_having hn fun d => h.mem_docSet

/-- Tables that represent a collection are read as the collection is. -/
theorem view_eq (h : Represents a docs t) :
    MemoryIndex.viewOf (.all t) = Collection.view a docs := by
  have hlength (doc : Int) : max ((t.statistics.length? doc).getD 1) 1 =
      (max (((docs.get? doc).map fun text => (a.terms text).length).getD 1) 1 : Nat) := by
    rw [CollectionStatistics.length?, h.length?]
    cases docs.get? doc with
    | none => rfl
    | some text =>
      simp only [Option.map_some, Option.getD_some]
      omega
  have hcontents : t.contents = ⟨docs⟩ := congrArg DocumentStore.mk h.contents
  simp only [MemoryIndex.viewOf, HeldTables.all, HeldTables.demand, Collection.view, h.frequency,
    h.documentFrequency, h.docSet, hlength, hcontents, ok_bind, pure_eq_ok, DocumentStore.content?,
    DocumentStore.size, DocumentStore.ids]

end Represents

end Tables

namespace MemoryIndex

theorem follows (a : Analyzer) : Ingestion.Follows (addDocument a) (Tables.Represents a) where
  take {docs t id content doc text} h hgives hfree := by
    have hcontents : t.contents.contents.get? doc = none := by rw [h.contents, hfree]
    refine .inl ⟨t.grow doc text (a.terms text), ?_, h.grow hfree hgives.hasPair⟩
    simp [addDocument, hgives.1, hgives.2,
      Tables.add_of_free hcontents (h.length?_of_free hfree) text (a.terms text)]
  refuse {docs t id content} h hno := by
    obtain ⟨e, hadd⟩ : ∃ e, addDocument a t id content = (t, Ingestion.refused id e) := by
      unfold addDocument
      cases hid : id.toInteger with
      | error e => exact ⟨e, rfl⟩
      | ok doc =>
        cases htext : Ingestion.textOf content with
        | error e => exact ⟨e, rfl⟩
        | ok text =>
          have htaken : t.contents.contents.get? doc ≠ none := by
            rw [h.contents]
            exact hno doc text ⟨hid, htext⟩
          refine ⟨.documentExists doc, ?_⟩
          simp [Tables.add_of_taken htaken text (a.terms text)]
    rw [hadd]
    obtain ⟨line, hline⟩ | ⟨failure, hfailure⟩ := Ingestion.report_cases id _
    · exact .inl ⟨line, congrArg (Prod.mk t) hline⟩
    · exact .inr ⟨failure, congrArg (Prod.mk t) hfailure⟩
  reports {t id content} hid := by
    unfold addDocument
    simp only
    split
    · exact ⟨_, Ingestion.report_of_isWritable hid _⟩
    · split
      · exact ⟨none, rfl⟩
      · exact ⟨_, Ingestion.report_of_isWritable hid _⟩

/-- Whatever entries an index takes in, its tables represent the documents it has accepted up to
the entry that ends the ingestion, if one does. -/
theorem represents_built (a : Analyzer) (entries : List Json) :
    ∃ before, before <+: entries ∧ Tables.Represents a (Ingestion.accepted .empty before)
      (Ingestion.ingest (addDocument a) .empty entries).built ∧
      ((Ingestion.ingest (addDocument a) .empty entries).stopped = none →
        before = entries ∧ ∀ entry ∈ entries, ∃ p, Ingestion.unpack entry = .ok p) :=
  (follows a).built entries (Tables.represents_empty a)

/-- When all entries are taken in, the tables represent the documents that are accepted. -/
theorem represents_of_stopped {a : Analyzer} {entries : List Json}
    (h : (Ingestion.ingest (addDocument a) .empty entries).stopped = none) :
    Tables.Represents a (Ingestion.accepted .empty entries)
      (Ingestion.ingest (addDocument a) .empty entries).built := by
  obtain ⟨before, -, hbuilt, hall⟩ := represents_built a entries
  rwa [(hall h).1] at hbuilt

/-- Writing is not broken off without a failure. -/
theorem breakOff_ne_none (storage : IndexStorage) (folder : Path) (files : List (Text × Content))
    (reason : Failure) : (breakOff storage folder files reason).2 ≠ none :=
  Option.some_ne_none _

/-- Tables are saved with the same success whatever they hold, as long as their ids can be
written. -/
theorem save_failure {x y : MemoryIndex} (hformat : x.format = y.format) {t u : Tables}
    (ht : x.format.form.takes t.contents.contents.keys = true)
    (hu : x.format.form.takes u.contents.contents.keys = true) (storage : IndexStorage)
    (path : Path) : (x.save t storage path).2 = (y.save u storage path).2 := by
  rw [save, save]
  cases storage.makeFolders path with
  | mk made failure =>
    cases failure with
    | some e => rfl
    | none =>
      show (x.saveIn t made path).2 = (y.saveIn u made path).2
      rw [saveIn, saveIn, ← hformat]
      cases hx : x.format with
      | value format =>
        rw [hx] at ht hu
        simp only [ht, hu, Bool.not_true, Bool.false_eq_true, if_false]
        split
        · rfl
        · exact Storage.writeIn_failure made path rfl
      | part => rfl

theorem takes_empty (form : Form) : form.takes Tables.empty.contents.contents.keys = true := by
  cases form <;> rfl

/-- Tables with an id that cannot be written are not saved. -/
theorem save_ne_none {x : MemoryIndex} {t : Tables}
    (ht : x.format.form.takes t.contents.contents.keys = false) (storage : IndexStorage)
    (path : Path) : (x.save t storage path).2 ≠ none := by
  rw [save]
  cases storage.makeFolders path with
  | mk made failure =>
    cases failure with
    | some e => exact Option.some_ne_none e
    | none =>
      show (x.saveIn t made path).2 ≠ none
      rw [saveIn]
      cases hx : x.format with
      | value format =>
        rw [hx] at ht
        simp only [ht, Bool.not_false, if_true]
        split <;> exact breakOff_ne_none _ _ _ _
      | part => exact breakOff_ne_none _ _ _ _

/-- Metadata among files name a format, unless they are only begun. -/
def NamesFormat (format : TableFormat) (files : List (Text × Content)) : Prop :=
  ∀ f ∈ files, f.1 = Tables.metadataFile →
    f.2 = .begun ∨ ∃ (j : Json) (x : MemoryIndex) (t : Tables),
      format = .value j ∧ f.2 = .value .lines (.obj (x.metadata t j))

theorem namesFormat_begun (format : TableFormat) :
    NamesFormat format [(Tables.metadataFile, .begun)] :=
  List.forall_mem_singleton.mpr fun _ => .inl rfl

theorem namesFormat_metadata (x : MemoryIndex) (t : Tables) (j : Json)
    {rest : List (Text × Content)} (h : ∀ f ∈ rest, f.1 ≠ Tables.metadataFile) :
    NamesFormat (.value j) ((Tables.metadataFile, .value .lines (.obj (x.metadata t j))) :: rest) :=
  List.forall_mem_cons.mpr
    ⟨fun _ => .inr ⟨j, x, t, rfl, rfl⟩, fun f hf hname => absurd hname (h f hf)⟩

/-- Saving tables writes files that name the format, also where it fails. -/
theorem exists_files_saveIn (x : MemoryIndex) (t : Tables) (storage : IndexStorage)
    (folder : Path) :
    ∃ files, (x.saveIn t storage folder).1 = (storage.writeIn folder files).1 ∧
      NamesFormat x.format files := by
  have hterms : Tables.termsFile ≠ Tables.metadataFile := by decide
  have hcontents : Tables.contentsFile ≠ Tables.metadataFile := by decide
  have hstatistics : Tables.statisticsFile ≠ Tables.metadataFile := by decide
  rw [saveIn]
  cases x.format with
  | part => exact ⟨_, rfl, namesFormat_begun _⟩
  | value j =>
    simp only
    split
    · exact ⟨_, rfl, namesFormat_begun _⟩
    · split
      · refine ⟨_, rfl, namesFormat_metadata x t j ?_⟩
        split <;> simp [hterms, hcontents]
      · exact ⟨_, rfl, namesFormat_metadata x t j (by simp [hterms, hcontents, hstatistics])⟩

/-- A build succeeds when all entries are taken in, their ids can be written, and an empty index
could be saved. -/
theorem build_failure (x : MemoryIndex) (storage : IndexStorage) (now : Text) (path : Path)
    (entries : List Json) :
    let result := Ingestion.ingest (addDocument x.analyzer) .empty entries
    (x.build storage now path entries).failure = none ↔
      result.stopped = none ∧ x.format.form.takes result.built.contents.contents.keys = true ∧
        (x.save .empty storage path).2 = none := by
  intro result
  rw [build]
  cases hstopped : result.stopped with
  | some e => simp [result]
  | none =>
    simp only [result, true_and]
    cases htakes : x.format.form.takes result.built.contents.contents.keys with
    | false =>
      simp only [Bool.false_eq_true, false_and, iff_false]
      refine save_ne_none ?_ storage path
      exact htakes
    | true =>
      simp only [true_and]
      refine Eq.congr_left (save_failure (by rfl) ?_ ?_ storage path)
      · exact htakes
      · exact takes_empty x.format.form

theorem build_tables (x : MemoryIndex) (storage : IndexStorage) (now : Text) (path : Path)
    (entries : List Json) :
    (x.build storage now path entries).index.tables =
      .all (Ingestion.ingest (addDocument x.analyzer) .empty entries).built := by
  rw [build]
  split <;> rfl

/-- A storage that a creation leaves: what was there, or what is left after a removal. -/
def Cleared (storage cleared : IndexStorage) : Prop :=
  cleared = storage ∨ ∃ path, cleared = (storage.remove path).1

/-- A creation fails before anything is built, whatever the entries are, or it builds. -/
theorem create_cases (x : MemoryIndex) (storage : IndexStorage) (now : Text) (name : Json) :
    (∃ cleared e, Cleared storage cleared ∧ ∀ entries, ∃ log,
      x.create storage now name entries = ⟨{ x with name := name }, cleared, log, some e⟩) ∨
    (∃ cleared t, name = .str t ∧ storage.Emptied (x.home.child t) cleared ∧ ∀ entries, ∃ log,
      x.create storage now name entries =
        { MemoryIndex.build { x with name := name } cleared now (x.home.child t) entries with
          log := log }) := by
  simp only [create]
  cases hname : name.text with
  | error e => exact .inl ⟨storage, e, .inl rfl, fun _ => ⟨_, rfl⟩⟩
  | ok t =>
    have hname := Json.text_eq_ok_iff.mp hname
    simp only [replace]
    cases storage.contains (x.home.child t) with
    | error e => exact .inl ⟨storage, e, .inl rfl, fun _ => ⟨_, rfl⟩⟩
    | ok there =>
      cases there with
      | false => exact .inr ⟨storage, t, hname, .inl rfl, fun _ => ⟨_, rfl⟩⟩
      | true =>
        cases hremoved : storage.remove (x.home.child t) with
        | mk cleared failure =>
          cases failure with
          | some e =>
            exact .inl ⟨cleared, e, .inr ⟨x.home.child t, by rw [hremoved]⟩, fun _ => ⟨_, rfl⟩⟩
          | none => exact .inr ⟨cleared, t, hname, .inr hremoved, fun _ => ⟨_, rfl⟩⟩

/-- What an index is set to when it is made. -/
def settings (x : MemoryIndex) : Analyzer × Path := (x.analyzer, x.home)

theorem settings_create (x : MemoryIndex) (storage : IndexStorage) (now : Text) (name : Json)
    (entries : List Json) : (x.create storage now name entries).index.settings = x.settings := by
  obtain ⟨cleared, e, -, hfails⟩ | ⟨cleared, t, -, -, hbuilds⟩ := create_cases x storage now name
  · obtain ⟨log, hlog⟩ := hfails entries
    rw [hlog]
    rfl
  · obtain ⟨log, hlog⟩ := hbuilds entries
    rw [hlog, build]
    split <;> rfl

theorem analyzer_create (x : MemoryIndex) (storage : IndexStorage) (now : Text) (name : Json)
    (entries : List Json) : (x.create storage now name entries).index.analyzer = x.analyzer :=
  congrArg Prod.fst (x.settings_create storage now name entries)

variable {x : MemoryIndex} {storage : IndexStorage} {now : Text} {name : Json}
  {entries : List Json}

/-- A creation that succeeds has built. -/
theorem exists_build (h : (x.create storage now name entries).failure = none) :
    ∃ cleared t, name = .str t ∧ storage.Emptied (x.home.child t) cleared ∧ ∀ entries, ∃ log,
      x.create storage now name entries =
        { MemoryIndex.build { x with name := name } cleared now (x.home.child t) entries with
          log := log } := by
  obtain ⟨cleared, e, -, hfails⟩ | hbuilds := create_cases x storage now name
  · obtain ⟨log, hlog⟩ := hfails entries
    rw [hlog] at h
    contradiction
  · exact hbuilds

theorem create_tables (h : (x.create storage now name entries).failure = none) :
    (x.create storage now name entries).index.tables =
      .all (Ingestion.ingest (addDocument x.analyzer) .empty entries).built := by
  obtain ⟨cleared, t, -, -, hbuilds⟩ := exists_build h
  obtain ⟨log, hlog⟩ := hbuilds entries
  rw [hlog]
  exact build_tables _ cleared now _ entries

/-- All entries of an index that has been created were taken in, and their ids can be written in the
form of the index. -/
theorem ingested_of_create (h : (x.create storage now name entries).failure = none) :
    let result := Ingestion.ingest (addDocument x.analyzer) .empty entries
    result.stopped = none ∧ x.format.form.takes result.built.contents.contents.keys = true := by
  obtain ⟨cleared, t, -, -, hbuilds⟩ := exists_build h
  obtain ⟨log, hlog⟩ := hbuilds entries
  rw [hlog] at h
  obtain ⟨hstopped, htakes, -⟩ := (build_failure _ cleared now _ entries).mp h
  exact ⟨hstopped, htakes⟩

/-- Where an index has been created, one of any other entries could have been created as well that
are taken in with ids that can be written. -/
theorem create_failure_of_ingested (h : (x.create storage now name entries).failure = none)
    {others : List Json}
    (hstopped : (Ingestion.ingest (addDocument x.analyzer) .empty others).stopped = none)
    (htakes : x.format.form.takes (Ingestion.ingest (addDocument x.analyzer) .empty
      others).built.contents.contents.keys = true) :
    (x.create storage now name others).failure = none := by
  obtain ⟨cleared, t, -, -, hbuilds⟩ := exists_build h
  obtain ⟨log, hlog⟩ := hbuilds entries
  obtain ⟨log', hlog'⟩ := hbuilds others
  rw [hlog] at h
  rw [hlog']
  obtain ⟨-, -, hsaved⟩ := (build_failure _ cleared now _ entries).mp h
  exact (build_failure _ cleared now _ others).mpr ⟨hstopped, htakes, hsaved⟩

/-- What is taken in from entries whose ids can be shown has ids that can be written. -/
theorem takes_of_legible (a : Analyzer) (form : Form) {entries : List Json}
    (h : Ingestion.Legible entries) : form.takes (Ingestion.ingest (addDocument a) .empty
      entries).built.contents.contents.keys = true := by
  have hrep := represents_of_stopped ((follows a).stopped_eq_none .empty h)
  rw [Form.takes, Bool.or_eq_true, List.all_eq_true, hrep.contents]
  refine .inr fun doc hdoc => ?_
  obtain ⟨text, htext⟩ := Option.isSome_iff_exists.mp (Table.mem_keys.mp hdoc)
  exact Ingestion.isWritable_of_accepted h htext

theorem view_create (h : (x.create storage now name entries).failure = none) :
    (x.create storage now name entries).index.view =
      Collection.view x.analyzer (Ingestion.accepted .empty entries) := by
  rw [view, create_tables h]
  exact (represents_of_stopped (ingested_of_create h).1).view_eq

theorem settings_restore (x : MemoryIndex) (storage : IndexStorage) (folder : Path)
    (metadata : Json) : (x.restore storage folder metadata).1.settings = x.settings := by
  unfold restore
  split
  · rfl
  · rfl
  · simp only
    split
    · rfl
    · split <;> rfl

/-- Where an index has been restored, its tables have been loaded in the format that the metadata
give. -/
theorem tables_load_of_restore {x y : MemoryIndex} {storage : IndexStorage} {folder : Path}
    {metadata : Json} {log : List LogLine} (h : x.restore storage folder metadata = (y, .ok log)) :
    x.tables.load storage folder
        (((Json.find? "format".toText metadata.members).map .value).getD x.format).form =
      (y.tables, none) := by
  unfold restore at h
  split at h
  · cases h
  · cases h
  · simp only at h
    split at h
    · cases h
    · split at h
      · cases h
      · next tables hload =>
        cases h
        exact hload

/-- A load fails before anything is read, or what comes of it is what comes of the restoration. -/
theorem load_cases (x : MemoryIndex) (storage : IndexStorage) (path : Path) :
    (∃ log e, x.load storage path = ⟨x, storage, log, some e⟩) ∨
      ∃ metadata y, metadataIn storage path = .ok metadata ∧
        ((∃ log, x.restore storage path metadata = (y, .ok log) ∧
            x.load storage path = ⟨y, storage, log, none⟩) ∨
          ∃ e, x.restore storage path metadata = (y, .error e) ∧
            x.load storage path = ⟨y, storage, [], some e⟩) := by
  unfold load
  split
  · exact .inl ⟨_, _, rfl⟩
  · exact .inl ⟨_, _, rfl⟩
  · split
    · exact .inl ⟨_, _, rfl⟩
    · next metadata hmetadata =>
      split
      · next y log hrestore => exact .inr ⟨metadata, y, hmetadata, .inl ⟨log, hrestore, rfl⟩⟩
      · next y e hrestore => exact .inr ⟨metadata, y, hmetadata, .inr ⟨e, hrestore, rfl⟩⟩

theorem settings_load (x : MemoryIndex) (storage : IndexStorage) (path : Path) :
    (x.load storage path).index.settings = x.settings := by
  obtain ⟨log, e, heq⟩ | ⟨metadata, y, -, ⟨log, hrestore, heq⟩ | ⟨e, hrestore, heq⟩⟩ :=
    x.load_cases storage path
  · rw [heq]
  all_goals
    have hsettings := settings_restore x storage path metadata
    rw [hrestore] at hsettings
    rwa [heq]

theorem analyzer_load (x : MemoryIndex) (storage : IndexStorage) (path : Path) :
    (x.load storage path).index.analyzer = x.analyzer :=
  congrArg Prod.fst (x.settings_load storage path)

theorem storage_load (x : MemoryIndex) (storage : IndexStorage) (path : Path) :
    (x.load storage path).storage = storage := by
  obtain ⟨log, e, heq⟩ | ⟨metadata, y, -, ⟨log, -, heq⟩ | ⟨e, -, heq⟩⟩ := x.load_cases storage path
  all_goals rw [heq]

theorem index_delete (x : MemoryIndex) (storage : IndexStorage) (name : Text) :
    (x.delete storage name).index = x := by
  unfold delete
  simp only
  split <;> rfl

end MemoryIndex

end Concordance
