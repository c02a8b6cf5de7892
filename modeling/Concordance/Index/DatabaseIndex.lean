import Concordance.Analyzer
import Concordance.Index.Identity
import Concordance.Index.Ingestion
import Concordance.Index.Stored
import Concordance.Index.View
import Concordance.Json.Integer

/-!
# Indexes in a database

An index that is read from an open database. Documents are written to it one by one;
the postings and the catalogue follow when all entries have been taken in.
-/
namespace Concordance

/-- An index in a database. -/
structure DatabaseIndex where
  analyzer : Analyzer
  home : Path
  opened : Option Database
  path : Option Path
  /-- The catalogue of the index that was created or loaded last, without members before. -/
  catalogue : Json

namespace DatabaseIndex

def new (analyzer : Analyzer) (home : Path) : DatabaseIndex := ⟨analyzer, home, none, none, .obj []⟩

def identity (x : DatabaseIndex) : Identity :=
  ⟨Identity.databaseCore, .database, x.analyzer.stemmer.kind⟩

def close (x : DatabaseIndex) : DatabaseIndex := { x with opened := none }

/-- Takes in one document, or says why it is refused. An id that cannot be shown has no key. -/
def addDocument (a : Analyzer) (d : Draft) (id content : Json) : Draft × Ingestion.Report :=
  match id.toInteger with
  | .error e => (d, Ingestion.refused id e)
  | .ok doc =>
    if !isWritable doc then (d, Ingestion.refused (.int doc) .tooManyDigits)
    else if d.database.hasDocument doc then
      (d, Ingestion.refused (.int doc) (.documentExists doc))
    else match Ingestion.textOf content with
      | .error e => (d, Ingestion.refused (.int doc) e)
      | .ok text => (d.add doc text (a.terms text), .ok none)

/-- The file of a folder by which it is known to hold a database. -/
def databaseFile : Text := "CURRENT".toText

/-- The index with a database that is open and kept in the folder at a path. -/
def keep (x : DatabaseIndex) (storage : IndexStorage) (path : Path) (db : Database) :
    DatabaseIndex × IndexStorage :=
  ({ x with opened := some db }, (storage.writeIn path [(databaseFile, .database db)]).1)

/-- Takes entries into a new database in the folder at a path and leaves it open. When an entry ends
the ingestion, the database has the documents up to it and nothing else, and the old catalogue
stays. -/
def fill (x : DatabaseIndex) (storage : IndexStorage) (name : Text) (path : Path)
    (entries : List Json) : Outcome DatabaseIndex :=
  let result := Ingestion.ingest (addDocument x.analyzer) .empty entries
  match result.stopped with
  | some e =>
    let (x, storage) := x.keep storage path result.built.database
    ⟨x, storage, result.log, some e⟩
  | none =>
    let catalogue := result.built.describe name x.analyzer.stemmer.name
    let (x, storage) := x.keep storage path (result.built.complete catalogue)
    ⟨{ x with catalogue := catalogue.toJson }, storage, result.log, none⟩

/-- Builds an index of the given entries in the folder at a path, which is made if it is not there.
Nothing is taken in where no database can be opened. -/
def build (x : DatabaseIndex) (storage : IndexStorage) (name : Text) (path : Path)
    (entries : List Json) : Outcome DatabaseIndex :=
  match storage.makeFolders path with
  | (storage, some e) => ⟨x, storage, [], some e⟩
  | (storage, none) =>
    match storage.writeIn path [(databaseFile, .database .empty)] with
    | (storage, some _) => ⟨x, storage, [], some (.notADatabase path.toText)⟩
    | (storage, none) => x.fill storage name path entries

/-- Creates an index in the folder of its name. What has been there is removed first. -/
def replace (x : DatabaseIndex) (storage : IndexStorage) (name : Text) (entries : List Json) :
    Outcome DatabaseIndex :=
  let path := x.home.child name
  let x := { x with path := some path }
  match storage.contains path with
  | .error e => ⟨x, storage, [], some e⟩
  | .ok false => x.build storage name path entries
  | .ok true =>
    match storage.remove path with
    | (storage, some e) => ⟨x, storage, [Ingestion.overwriting name], some e⟩
    | (storage, none) => (x.build storage name path entries).report (Ingestion.overwriting name)

/-- Creates an index of that name, which has to be a text. The old database is closed in any
case. -/
def create (x : DatabaseIndex) (storage : IndexStorage) (name : Json) (entries : List Json) :
    Outcome DatabaseIndex :=
  match name.text with
  | .ok t => x.close.replace storage t entries
  | .error e => ⟨x.close, storage, [], some e⟩

/-- Opens the database at a path. Without a catalogue it stays open, and the old catalogue stays. -/
def load (x : DatabaseIndex) (storage : IndexStorage) (path : Path) : Outcome DatabaseIndex :=
  match storage.contains path with
  | .error e => ⟨x, storage, [], some e⟩
  | .ok false => ⟨x, storage, [], some (.noDatabaseAt path.toText)⟩
  | .ok true =>
    let x := { x.close with path := some path }
    match storage.read (path.child databaseFile) with
    | .ok (.database db) =>
      let x := { x with opened := some db }
      match db.catalogue? with
      | some catalogue => ⟨{ x with catalogue := catalogue }, storage, [], none⟩
      | none => ⟨x, storage, [], some (.noMetadataIn path.toText)⟩
    | _ => ⟨x, storage, [], some (.notADatabase path.toText)⟩

/-- Deletes the stored index of that name. If it is the one that was opened last, it is closed. -/
def delete (x : DatabaseIndex) (storage : IndexStorage) (name : Text) : Outcome DatabaseIndex :=
  let path := x.home.child name
  let x := if x.path = some path then x.close else x
  match storage.contains path with
  | .error e => ⟨x, storage, [], some e⟩
  | .ok false => ⟨x, storage, [], some (.noIndexNamed name)⟩
  | .ok true =>
    let (storage, failure) := storage.remove path
    ⟨x, storage, [], failure⟩

/-- The names of the stored indexes, none where their folder is missing. -/
def stored (x : DatabaseIndex) (storage : IndexStorage) : Except Failure (List Text) := do
  if ← storage.contains x.home then storage.folders x.home else return []

/-- What a search reads of an open database, of which the catalogue is told separately. A search
asks for documents that it has found, and their ids can all be shown. -/
def viewOf (db : Database) (catalogue : Json) : IndexView where
  frequency term doc := do return (((← db.postings term).get? doc).getD 0 : Nat)
  length doc := do return (max (((← db.document? doc).map (·.length)).getD 1) 1 : Nat)
  documentFrequency term := do return (← db.postings term).size
  documentCount := do return (← Catalogue.documentCountOf catalogue : Nat)
  postings term := do return .ofList (← db.postings term).keys
  content doc := do return (← db.document? doc).map (·.content)
  documents := Catalogue.documentsOf catalogue

def view (x : DatabaseIndex) : IndexView :=
  match x.opened with
  | some db => viewOf db x.catalogue
  | none => .failing .notLoaded

def metadata (x : DatabaseIndex) : List (Text × Json) := x.catalogue.members

end DatabaseIndex

end Concordance
