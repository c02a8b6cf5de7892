import Concordance.Index.DatabaseIndex
import Concordance.Proofs.Collection
import Concordance.Proofs.Database
import Concordance.Proofs.Storage
import Concordance.Proofs.Except

/-!
# What an index in a database holds

A database represents a collection when it has its documents and the counts of their
terms. A draft of it does so with the counts that are kept beside it, and taking in a
document keeps this. So an index that has been created answers as its collection does.
-/
namespace Concordance

/-- What is counted of a term in the text of a document. -/
def counted (a : Analyzer) (term text : Text) : Option Nat :=
  if (a.terms text).contains term then some ((a.terms text).count term) else none

theorem counted_eq (a : Analyzer) (term text : Text) :
    counted a term text =
      if term ∈ a.terms text then some ((a.terms text).count term) else none := by
  simp [counted]

/-- A catalogue lists the documents of a collection. -/
structure Catalogue.Lists (docs : Collection) (c : Json) : Prop where
  count : Catalogue.documentCountOf c = .ok docs.size
  documents : Catalogue.documentsOf c = .ok (sortBy (fun d e => d ≤ e) docs.keys)

namespace Database

/-- The database holds the documents of a collection, as they are analysed, and every record of it
can be read. -/
structure Represents (a : Analyzer) (docs : Collection) (db : Database) : Prop where
  documents : ∀ doc, db.document? doc =
    .ok ((docs.get? doc).map fun text => ⟨text, (a.terms text).length⟩)
  postings : ∀ term, ∃ p, db.postings term = .ok p ∧
    ∀ doc, p.get? doc = (docs.get? doc).bind (counted a term)

/-- What is to be read of the postings of a term. -/
structure Postings (a : Analyzer) (docs : Collection) (term : Text) (p : Table Int Nat) : Prop where
  frequency : ∀ doc, (p.get? doc).getD 0 = Collection.frequency a docs term doc
  mem_keys : ∀ doc, doc ∈ p.keys ↔ doc ∈ Collection.having a docs term

namespace Postings

variable {a : Analyzer} {docs : Collection} {term : Text} {p : Table Int Nat}

theorem of_get? (h : ∀ doc, p.get? doc = (docs.get? doc).bind (counted a term)) :
    Postings a docs term p where
  frequency doc := by
    rw [h, Collection.frequency]
    cases docs.get? doc with
    | none => rfl
    | some text =>
      rw [Option.bind_some, counted_eq]
      split
      · rfl
      · next hterm => exact (List.count_eq_zero_of_not_mem hterm).symm
  mem_keys doc := by
    rw [Table.mem_keys, h, Collection.mem_having]
    cases docs.get? doc with
    | none => simp
    | some text =>
      rw [Option.bind_some, counted_eq]
      split <;> simp [*]

theorem size (h : Postings a docs term p) : p.size = (Collection.having a docs term).length := by
  rw [← Table.length_keys]
  exact Collection.length_eq_having (Table.nodup_keys _) h.mem_keys

theorem docSet (h : Postings a docs term p) :
    DocSet.ofList p.keys = .ofList (Collection.having a docs term) := by
  apply DocSet.ext
  intro d
  rw [DocSet.mem_ofList, DocSet.mem_ofList, h.mem_keys]

end Postings

namespace Represents

variable {a : Analyzer} {docs : Collection} {db : Database}

theorem exists_postings (h : Represents a docs db) (term : Text) :
    ∃ p, db.postings term = .ok p ∧ Postings a docs term p := by
  obtain ⟨p, hp, hget⟩ := h.postings term
  exact ⟨p, hp, .of_get? hget⟩

/-- A database that represents a collection is read as the collection is, with a catalogue that
lists its documents. -/
theorem view_eq (h : Represents a docs db) {c : Json} (hlists : Catalogue.Lists docs c) :
    DatabaseIndex.viewOf db c = Collection.view a docs := by
  simp only [DatabaseIndex.viewOf, Collection.view, IndexView.mk.injEq, Counts.mk.injEq]
  refine ⟨⟨?_, ?_, ?_, ?_⟩, ?_, ?_, ?_⟩
  · funext term doc
    obtain ⟨p, hp, hread⟩ := h.exists_postings term
    rw [hp, ok_bind, hread.frequency]
    rfl
  · funext doc
    rw [h.documents, ok_bind, Option.map_map]
    rfl
  · funext term
    obtain ⟨p, hp, hread⟩ := h.exists_postings term
    rw [hp, ok_bind, hread.size]
    rfl
  · rw [hlists.count, ok_bind]
    rfl
  · funext term
    obtain ⟨p, hp, hread⟩ := h.exists_postings term
    rw [hp, ok_bind, hread.docSet]
    rfl
  · funext doc
    rw [h.documents, ok_bind, Option.map_map]
    exact congrArg Except.ok Option.map_id_apply
  · exact hlists.documents

end Represents

end Database

namespace Draft

/-- The draft has written the documents of a collection, whose ids can be written and whose texts
have no pair, and no terms, which it has counted. -/
structure Represents (a : Analyzer) (docs : Collection) (d : Draft) : Prop where
  writable : ∀ doc text, docs.get? doc = some text → isWritable doc = true
  documents : ∀ doc, d.database.document? doc =
    .ok ((docs.get? doc).map fun text => ⟨text, (a.terms text).length⟩)
  unwritten : ∀ term, d.database.postings term = .ok .empty
  terms : ∀ term doc,
    ((d.terms.get? term).getD .empty).get? doc = (docs.get? doc).bind (counted a term)
  ids : d.documents = docs.keys

theorem represents_empty (a : Analyzer) : Represents a .empty .empty where
  writable _ _ h := by cases h
  documents _ := rfl
  unwritten _ := rfl
  terms _ _ := rfl
  ids := rfl

namespace Represents

variable {a : Analyzer} {docs : Collection} {d : Draft}

theorem add (h : Represents a docs d) {doc : Int} (hnew : docs.get? doc = none) {text : Text}
    (hdoc : isWritable doc = true) (htext : hasPair text = false) :
    Represents a (docs.set doc text) (d.add doc text (a.terms text)) := by
  constructor
  · intro doc' text' hset
    rw [Table.get?_set] at hset
    split at hset
    · next heq => rwa [heq]
    · exact h.writable doc' text' hset
  · intro doc'
    rw [Draft.add, Database.document?_put _ _ _ htext, Table.get?_set, h.documents]
    split <;> rfl
  · intro term
    rw [Draft.add, Database.postings_put_of_ne _ (Database.termKey_ne_documentKey term _),
      h.unwritten]
  · intro term doc'
    rw [get?_terms_add, Table.get?_set]
    by_cases hd : doc' = doc
    · subst hd
      rw [if_pos rfl, Option.bind_some, counted_eq]
      split
      · exact Table.get?_set_self _ _ _
      · rw [h.terms, hnew]
        rfl
    · rw [if_neg hd]
      split
      · rw [Option.getD_some, Table.get?_set_of_ne _ _ hd, h.terms]
      · rw [h.terms]
  · rw [Draft.add, h.ids, Table.keys_set_of_new hnew]

/-- The ids that are counted with a term can be written. -/
theorem isWritable_of_terms (h : Represents a docs d) :
    ∀ e ∈ d.terms.entries, ∀ p ∈ e.2.entries, isWritable p.1 = true := by
  rintro ⟨term, p⟩ he ⟨doc, n⟩ hp
  have hcounted := h.terms term doc
  rw [Table.mem_entries_iff.mp he, Option.getD_some, Table.mem_entries_iff.mp hp] at hcounted
  cases htext : docs.get? doc with
  | none =>
    rw [htext] at hcounted
    cases hcounted
  | some text => exact h.writable doc text htext

theorem complete (h : Represents a docs d) (c : Catalogue) :
    Database.Represents a docs (d.complete c) := by
  constructor
  · intro doc
    rw [document?_complete, h.documents]
  · intro term
    have hterm := h.terms term
    rw [postings_complete h.isWritable_of_terms, h.unwritten]
    cases hp : d.terms.get? term with
    | none =>
      rw [hp] at hterm
      exact ⟨.empty, rfl, hterm⟩
    | some p =>
      rw [hp] at hterm
      exact ⟨p, rfl, hterm⟩

theorem lists_describe (h : Represents a docs d) (name stemmer : Text) :
    Catalogue.Lists docs (d.describe name stemmer).toJson where
  count := by rw [Catalogue.documentCountOf_toJson, describe, h.ids, Table.length_keys]
  documents := by rw [Catalogue.documentsOf_toJson, describe, h.ids]

theorem view_eq (h : Represents a docs d) (name stemmer : Text) :
    DatabaseIndex.viewOf (d.complete (d.describe name stemmer)) (d.describe name stemmer).toJson =
      Collection.view a docs :=
  (h.complete _).view_eq (h.lists_describe name stemmer)

end Represents

end Draft

namespace DatabaseIndex

theorem addDocument_of_gives {a : Analyzer} {docs : Collection} {d : Draft} {id content : Json}
    {doc : Int} {text : Text} (h : Draft.Represents a docs d)
    (hgives : Ingestion.Gives id content doc text) (hfree : docs.get? doc = none)
    (hdoc : isWritable doc = true) :
    addDocument a d id content = (d.add doc text (a.terms text), .ok none) := by
  have hnew : d.database.hasDocument doc = false := by
    rw [Database.hasDocument_of_document? (h.documents doc), hfree]
    rfl
  simp [addDocument, hgives.1, hgives.2, hdoc, hnew]

/-- An id that cannot be shown cannot be refused. -/
theorem addDocument_of_not_isWritable (a : Analyzer) (d : Draft) {id : Json} {doc : Int}
    (hid : id.toInteger = .ok doc) (hdoc : isWritable doc = false) (content : Json) :
    addDocument a d id content = (d, .error .tooManyDigits) := by
  have hshown : (Json.int doc).shown = .error .tooManyDigits := by
    rw [Json.shown, if_neg]
    simpa [Json.isWritable] using hdoc
  simp only [addDocument, hid, hdoc, Bool.not_false, if_true, Ingestion.refused, Ingestion.report,
    hshown]
  rfl

theorem follows (a : Analyzer) : Ingestion.Follows (addDocument a) (Draft.Represents a) where
  take {docs d id content doc text} h hgives hfree := by
    cases hdoc : isWritable doc with
    | true =>
      exact .inl ⟨_, addDocument_of_gives h hgives hfree hdoc, h.add hfree hdoc hgives.hasPair⟩
    | false => exact .inr ⟨_, addDocument_of_not_isWritable a d hgives.1 hdoc content⟩
  refuse {docs d id content} h hno := by
    have hreport : ∃ shown reason, addDocument a d id content =
        (d, Ingestion.refused shown reason) := by
      unfold addDocument
      cases hid : id.toInteger with
      | error e => exact ⟨_, _, rfl⟩
      | ok doc =>
        simp only
        split
        · exact ⟨_, _, rfl⟩
        · split
          · exact ⟨_, _, rfl⟩
          · next hfree =>
            cases htext : Ingestion.textOf content with
            | error e => exact ⟨_, _, rfl⟩
            | ok text =>
              have htaken := hno doc text ⟨hid, htext⟩
              rw [Database.hasDocument_of_document? (h.documents doc), Option.isSome_map,
                Bool.not_eq_true, Option.isSome_eq_false_iff, Option.isNone_iff_eq_none] at hfree
              exact absurd hfree htaken
    obtain ⟨shown, reason, hadd⟩ := hreport
    rw [hadd]
    obtain ⟨line, hline⟩ | ⟨failure, hfailure⟩ := Ingestion.report_cases shown _
    · exact .inl ⟨line, congrArg (Prod.mk d) hline⟩
    · exact .inr ⟨failure, congrArg (Prod.mk d) hfailure⟩
  reports {d id content} hid := by
    unfold addDocument
    cases hinteger : id.toInteger with
    | error e => exact ⟨_, Ingestion.report_of_isWritable hid _⟩
    | ok doc =>
      have hdoc : (Json.int doc).isWritable = true := Json.isWritable_of_toInteger hinteger hid
      simp only
      split
      · exact ⟨_, Ingestion.report_of_isWritable hdoc _⟩
      · split
        · exact ⟨_, Ingestion.report_of_isWritable hdoc _⟩
        · split
          · exact ⟨_, Ingestion.report_of_isWritable hdoc _⟩
          · exact ⟨none, rfl⟩

/-- Whatever entries an index takes in, its draft represents the documents it has accepted up to
the entry that ends the ingestion, if one does. -/
theorem represents_built (a : Analyzer) (entries : List Json) :
    ∃ before, before <+: entries ∧ Draft.Represents a (Ingestion.accepted .empty before)
      (Ingestion.ingest (addDocument a) .empty entries).built ∧
      ((Ingestion.ingest (addDocument a) .empty entries).stopped = none →
        before = entries ∧ ∀ entry ∈ entries, ∃ p, Ingestion.unpack entry = .ok p) :=
  (follows a).built entries (Draft.represents_empty a)

/-- When all entries are taken in, the draft represents the documents that are accepted. -/
theorem represents_of_stopped {a : Analyzer} {entries : List Json}
    (h : (Ingestion.ingest (addDocument a) .empty entries).stopped = none) :
    Draft.Represents a (Ingestion.accepted .empty entries)
      (Ingestion.ingest (addDocument a) .empty entries).built := by
  obtain ⟨before, -, hbuilt, hall⟩ := represents_built a entries
  rwa [(hall h).1] at hbuilt

theorem view_fill {x : DatabaseIndex} {storage : IndexStorage} {name : Text} {path : Path}
    {entries : List Json} (h : (x.fill storage name path entries).failure = none) :
    (x.fill storage name path entries).index.view =
      Collection.view x.analyzer (Ingestion.accepted .empty entries) := by
  rw [fill] at h ⊢
  cases hstopped : (Ingestion.ingest (addDocument x.analyzer) .empty entries).stopped with
  | some e => simp [hstopped] at h
  | none => exact (represents_of_stopped hstopped).view_eq name x.analyzer.stemmer.name

/-- A database has just been opened in the folder at a path, which has been made if need be. -/
def Opened (path : Path) (storage opened : IndexStorage) : Prop :=
  ∃ made : IndexStorage, storage.makeFolders path = (made, none) ∧
    made.writeIn path [(databaseFile, .database .empty)] = (opened, none)

/-- A build fails before anything is taken in, whatever the entries are, or it fills a database. -/
theorem build_cases (x : DatabaseIndex) (storage : IndexStorage) (name : Text) (path : Path) :
    (∃ left e, ∀ entries, x.build storage name path entries = ⟨x, left, [], some e⟩) ∨
      ∃ opened, Opened path storage opened ∧
        ∀ entries, x.build storage name path entries = x.fill opened name path entries := by
  simp only [build]
  cases hmade : storage.makeFolders path with
  | mk made failure =>
    cases failure with
    | some e => exact .inl ⟨made, e, fun _ => rfl⟩
    | none =>
      cases hopened : made.writeIn path [(databaseFile, .database .empty)] with
      | mk opened failure =>
        cases failure with
        | some e => exact .inl ⟨opened, .notADatabase path.toText, fun _ => by simp [hopened]⟩
        | none => exact .inr ⟨opened, ⟨made, hmade, hopened⟩, fun _ => by simp [hopened]⟩

/-- The index with the path of a name. -/
def towards (x : DatabaseIndex) (name : Text) : DatabaseIndex :=
  { x with path := some (x.home.child name) }

theorem replace_cases (x : DatabaseIndex) (storage : IndexStorage) (name : Text) :
    (∃ left e, ∀ entries, ∃ log,
      x.replace storage name entries = ⟨x.towards name, left, log, some e⟩) ∨
      ∃ cleared, storage.Emptied (x.home.child name) cleared ∧ ∀ entries, ∃ log,
        x.replace storage name entries =
          { (x.towards name).build cleared name (x.home.child name) entries with log := log } := by
  simp only [replace]
  cases storage.contains (x.home.child name) with
  | error e => exact .inl ⟨storage, e, fun _ => ⟨_, rfl⟩⟩
  | ok there =>
    cases there with
    | false => exact .inr ⟨storage, .inl rfl, fun _ => ⟨_, rfl⟩⟩
    | true =>
      cases hremoved : storage.remove (x.home.child name) with
      | mk cleared failure =>
        cases failure with
        | some e => exact .inl ⟨cleared, e, fun _ => ⟨_, rfl⟩⟩
        | none => exact .inr ⟨cleared, .inr hremoved, fun _ => ⟨_, rfl⟩⟩

/-- What an index is set to when it is made. -/
def settings (x : DatabaseIndex) : Analyzer × Path := (x.analyzer, x.home)

/-- A creation fails before anything is taken in, whatever the entries are, or it fills a database
in the folder of its name. -/
theorem create_cases (x : DatabaseIndex) (storage : IndexStorage) (name : Json) :
    (∃ y left e, y.settings = x.settings ∧ ∀ entries, ∃ log,
      x.create storage name entries = ⟨y, left, log, some e⟩) ∨
      ∃ t cleared opened, name = .str t ∧ storage.Emptied (x.home.child t) cleared ∧
        Opened (x.home.child t) cleared opened ∧ ∀ entries, ∃ log,
          x.create storage name entries =
            { (x.close.towards t).fill opened t (x.home.child t) entries with log := log } := by
  cases hname : name.text with
  | error e =>
    exact .inl ⟨x.close, storage, e, rfl, fun _ => ⟨[], by simp only [create, hname]⟩⟩
  | ok t =>
    simp only [create, hname]
    obtain ⟨left, e, hfails⟩ | ⟨cleared, hcleared, hbuilds⟩ := x.close.replace_cases storage t
    · exact .inl ⟨x.close.towards t, left, e, rfl, hfails⟩
    · obtain ⟨left, e, hfails⟩ | ⟨opened, hopened, hfills⟩ :=
        (x.close.towards t).build_cases cleared t (x.close.home.child t)
      · refine .inl ⟨x.close.towards t, left, e, rfl, fun entries => ?_⟩
        obtain ⟨log, hlog⟩ := hbuilds entries
        exact ⟨log, by rw [hlog, hfails]⟩
      · refine .inr ⟨t, cleared, opened, Json.text_eq_ok_iff.mp hname, hcleared, hopened,
          fun entries => ?_⟩
        obtain ⟨log, hlog⟩ := hbuilds entries
        exact ⟨log, by rw [hlog, hfills]; rfl⟩

theorem fill_failure (x : DatabaseIndex) (storage : IndexStorage) (name : Text) (path : Path)
    (entries : List Json) :
    (x.fill storage name path entries).failure =
      (Ingestion.ingest (addDocument x.analyzer) .empty entries).stopped := by
  rw [fill]
  cases hstopped : (Ingestion.ingest (addDocument x.analyzer) .empty entries).stopped with
  | some e => simp
  | none => simp

/-- A creation that succeeds has filled a database. -/
theorem exists_fill {x : DatabaseIndex} {storage : IndexStorage} {name : Json}
    {entries : List Json} (h : (x.create storage name entries).failure = none) :
    ∃ t cleared opened, name = .str t ∧ storage.Emptied (x.home.child t) cleared ∧
      Opened (x.home.child t) cleared opened ∧ ∀ entries, ∃ log,
        x.create storage name entries =
          { (x.close.towards t).fill opened t (x.home.child t) entries with log := log } := by
  obtain ⟨y, left, e, -, hfails⟩ | hfills := create_cases x storage name
  · obtain ⟨log, hlog⟩ := hfails entries
    rw [hlog] at h
    contradiction
  · exact hfills

theorem view_create {x : DatabaseIndex} {storage : IndexStorage} {name : Json}
    {entries : List Json} (h : (x.create storage name entries).failure = none) :
    (x.create storage name entries).index.view =
      Collection.view x.analyzer (Ingestion.accepted .empty entries) := by
  obtain ⟨t, cleared, opened, -, -, -, hfills⟩ := exists_fill h
  obtain ⟨log, hlog⟩ := hfills entries
  rw [hlog] at h ⊢
  exact view_fill h

theorem settings_create (x : DatabaseIndex) (storage : IndexStorage) (name : Json)
    (entries : List Json) : (x.create storage name entries).index.settings = x.settings := by
  obtain ⟨y, left, e, hsettings, hfails⟩ | ⟨t, cleared, opened, -, -, -, hfills⟩ :=
    create_cases x storage name
  · obtain ⟨log, hlog⟩ := hfails entries
    rw [hlog]
    exact hsettings
  · obtain ⟨log, hlog⟩ := hfills entries
    rw [hlog, fill]
    simp only
    split <;> rfl

theorem settings_load (x : DatabaseIndex) (storage : IndexStorage) (path : Path) :
    (x.load storage path).index.settings = x.settings := by
  unfold load
  split
  · rfl
  · rfl
  · simp only
    split
    · split <;> rfl
    · rfl

theorem storage_load (x : DatabaseIndex) (storage : IndexStorage) (path : Path) :
    (x.load storage path).storage = storage := by
  unfold load
  split
  · rfl
  · rfl
  · simp only
    split
    · split <;> rfl
    · rfl

section Loading

variable {storage : IndexStorage} {path : Path} {db : Database} {c : Json}

/-- A database with a catalogue is loaded from the folder that holds it. -/
theorem load_of_read (hthere : storage.contains path = .ok true)
    (hread : storage.read (path.child databaseFile) = .ok (.database db))
    (hc : db.catalogue? = some c) (x : DatabaseIndex) :
    x.load storage path =
      ⟨{ x with opened := some db, path := some path, catalogue := c }, storage, [], none⟩ := by
  simp only [load, hthere, hread, hc]
  rfl

/-- A load that succeeds finds a database with a catalogue in the folder. -/
theorem exists_of_load {x : DatabaseIndex} (h : (x.load storage path).failure = none) :
    storage.contains path = .ok true ∧ ∃ db c,
      storage.read (path.child databaseFile) = .ok (.database db) ∧ db.catalogue? = some c := by
  unfold load at h
  split at h
  · cases h
  · cases h
  · next hthere =>
    simp only at h
    split at h
    · next db hread =>
      split at h
      · next c hc => exact ⟨hthere, db, c, hread, hc⟩
      · cases h
    · cases h

end Loading

theorem settings_delete (x : DatabaseIndex) (storage : IndexStorage) (name : Text) :
    (x.delete storage name).index.settings = x.settings := by
  have hclose : (if x.path = some (x.home.child name) then x.close else x).settings =
      x.settings := by
    split <;> rfl
  unfold delete
  simp only
  split <;> exact hclose

end DatabaseIndex

end Concordance
