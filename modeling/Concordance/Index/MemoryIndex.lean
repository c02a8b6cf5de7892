import Concordance.Analyzer
import Concordance.Index.Identity
import Concordance.Index.Ingestion
import Concordance.Index.Saved
import Concordance.Index.View
import Concordance.Text.Moment

/-!
# Indexes in memory

An index whose tables are in memory while it is used. Creating one saves it in a
folder of its own, from which it is loaded again.
-/
namespace Concordance

/-- An index in memory. -/
structure MemoryIndex where
  analyzer : Analyzer
  home : Path
  format : TableFormat
  /-- The tables of the index that was created or loaded last. -/
  tables : HeldTables
  name : Json
  documentCount : Json
  created : Option Text

namespace MemoryIndex

def new (analyzer : Analyzer) (home : Path) (format : TableFormat) : MemoryIndex :=
  ⟨analyzer, home, format, .none, .null, .int 0, none⟩

def identity (x : MemoryIndex) : Identity := ⟨Identity.memoryCore, .memory, x.analyzer.stemmer.kind⟩

/-- Takes in one document, or says why it is refused. -/
def addDocument (a : Analyzer) (t : Tables) (id content : Json) : Tables × Ingestion.Report :=
  let read : Except Failure (Int × Text) := do
    let doc ← id.toInteger
    return (doc, ← Ingestion.textOf content)
  match read with
  | .error e => (t, Ingestion.refused id e)
  | .ok (doc, text) =>
    match t.add doc text (a.terms text) with
    | (t, none) => (t, .ok none)
    | (t, some e) => (t, Ingestion.refused id e)

/-- The metadata that are saved beside tables whose format is a value. -/
def metadata (x : MemoryIndex) (t : Tables) (format : Json) : List (Text × Json) :=
  [("index_name".toText, x.name), ("document_count".toText, x.documentCount),
    ("vocabulary_size".toText, .int t.terms.dictionary.size),
    ("created_at".toText, (x.created.map Json.str).getD .null), ("format".toText, format),
    ("stemmer".toText, .str x.analyzer.stemmer.name)]

/-- Writes files the last of which is only begun, for a reason that is reported unless the writing
fails by itself. -/
def breakOff (storage : IndexStorage) (folder : Path) (files : List (Text × Content))
    (reason : Failure) : IndexStorage × Option Failure :=
  let (storage, failure) := storage.writeIn folder files
  (storage, some (failure.getD reason))

/-- Saves the tables in a folder that is there. A format that is no value ends the writing of the
metadata, which come first. -/
def saveIn (x : MemoryIndex) (t : Tables) (storage : IndexStorage) (folder : Path) :
    IndexStorage × Option Failure :=
  match x.format with
  | .value format =>
    let form := x.format.form
    if !format.isWritable then
      breakOff storage folder [(Tables.metadataFile, .begun)] .tooManyDigits
    else if !form.takes t.contents.contents.keys then
      breakOff storage folder (t.begunFiles form (x.metadata t format)) .tooManyDigits
    else storage.writeIn folder (t.files form (x.metadata t format))
  | .part => breakOff storage folder [(Tables.metadataFile, .begun)] .wrongKind

/-- Saves the tables in the folder at a path, which is made if it is not there. -/
def save (x : MemoryIndex) (t : Tables) (storage : IndexStorage) (path : Path) :
    IndexStorage × Option Failure :=
  match storage.makeFolders path with
  | (storage, none) => x.saveIn t storage path
  | failed => failed

/-- Builds an index of the given entries at the moment `now` and saves it in the folder at a path.
When an entry ends the ingestion, the tables stay as they are then, and nothing is saved. -/
def build (x : MemoryIndex) (storage : IndexStorage) (now : Text) (path : Path)
    (entries : List Json) : Outcome MemoryIndex :=
  let result := Ingestion.ingest (addDocument x.analyzer) .empty entries
  let x := { x with tables := .all result.built }
  match result.stopped with
  | some e => ⟨x, storage, result.log, some e⟩
  | none =>
    let x := { x with documentCount := .int result.documents, created := some now }
    let (storage, failure) := x.save result.built storage path
    ⟨x, storage, result.log, failure⟩

/-- Creates an index at the moment `now`, in the folder of its name. What has been there is removed
first. -/
def replace (x : MemoryIndex) (storage : IndexStorage) (now name : Text) (entries : List Json) :
    Outcome MemoryIndex :=
  let path := x.home.child name
  match storage.contains path with
  | .error e => ⟨x, storage, [], some e⟩
  | .ok false => x.build storage now path entries
  | .ok true =>
    match storage.remove path with
    | (storage, some e) => ⟨x, storage, [Ingestion.overwriting name], some e⟩
    | (storage, none) => (x.build storage now path entries).report (Ingestion.overwriting name)

/-- Creates an index of that name at the moment `now`. A name that is no text is kept all the
same. -/
def create (x : MemoryIndex) (storage : IndexStorage) (now : Text) (name : Json)
    (entries : List Json) : Outcome MemoryIndex :=
  let x := { x with name := name }
  match name.text with
  | .ok t => x.replace storage now t entries
  | .error e => ⟨x, storage, [], some e⟩

def momentOf (value : Json) : Except Failure (Option Text) :=
  if value.isEmpty then .ok none
  else match value with
    | .str t => if Moment.isMoment t then .ok (some t) else .error .notADate
    | _ => .error .wrongKind

/-- What is reported of an index whose terms were made by another stemmer. -/
def stemmerWarnings (x : MemoryIndex) (metadata : List (Text × Json)) : List LogLine :=
  let same := match Json.find? "stemmer".toText metadata with
    | some (.str t) => t == x.analyzer.stemmer.name
    | _ => false
  if same then []
  else
    let built := ((Json.find? "stemmer".toText metadata).getD .null).display
    [.warning ("Index was built with stemmer=".toText ++ built ++
      ", querying with stemmer=".toText ++ x.analyzer.stemmer.name)]

/-- The index after the one in a folder has been read, with what is reported or the failure. What
was read before a failure stays. -/
def restore (x : MemoryIndex) (storage : IndexStorage) (folder : Path) (metadata : Json) :
    MemoryIndex × Except Failure (List LogLine) :=
  match metadata.field "index_name".toText, metadata.field "document_count".toText with
  | .error e, _ => (x, .error e)
  | .ok name, .error e => ({ x with name := name }, .error e)
  | .ok name, .ok count =>
    let given := metadata.members
    let format := ((Json.find? "format".toText given).map TableFormat.value).getD x.format
    let x := { x with name := name, documentCount := count, format := format }
    match momentOf ((Json.find? "created_at".toText given).getD .null) with
    | .error e => (x, .error e)
    | .ok created =>
      let x := { x with created := created }
      match x.tables.load storage folder format.form with
      | (tables, some e) => ({ x with tables := tables }, .error e)
      | (tables, none) => ({ x with tables := tables }, .ok (x.stemmerWarnings given))

def metadataIn (storage : IndexStorage) (folder : Path) : Except Failure Json := do
  (← storage.read (folder.child Tables.metadataFile)).ofText

def load (x : MemoryIndex) (storage : IndexStorage) (path : Path) : Outcome MemoryIndex :=
  match storage.contains path with
  | .error e => ⟨x, storage, [], some e⟩
  | .ok false =>
    ⟨x, storage, [.error ("Index not found at ".toText ++ path.toText)],
      some (.noIndexAt path.toText)⟩
  | .ok true =>
    match metadataIn storage path with
    | .error e => ⟨x, storage, [], some e⟩
    | .ok metadata =>
      match x.restore storage path metadata with
      | (x, .ok log) => ⟨x, storage, log, none⟩
      | (x, .error e) => ⟨x, storage, [], some e⟩

/-- Deletes the stored index of that name. What is in memory stays. -/
def delete (x : MemoryIndex) (storage : IndexStorage) (name : Text) : Outcome MemoryIndex :=
  let path := x.home.child name
  match storage.contains path with
  | .error e => ⟨x, storage, [], some e⟩
  | .ok false =>
    ⟨x, storage, [.warning ("Index ".toText ++ name ++ " not found".toText)],
      some (.noIndexNamed name)⟩
  | .ok true =>
    let (storage, failure) := storage.remove path
    ⟨x, storage, [], failure⟩

def stored (x : MemoryIndex) (storage : IndexStorage) : Except Failure (List Text) :=
  storage.folders x.home

/-- What a search reads of tables, of which the terms say whether there are any. -/
def viewOf (held : HeldTables) : IndexView :=
  match held.terms with
  | none => .failing .notLoaded
  | some terms => {
      frequency term doc := .ok (terms.frequency term doc)
      length doc := do
        let statistics ← HeldTables.demand held.statistics
        return max ((statistics.length? doc).getD 1) 1
      documentFrequency term := .ok (terms.documentFrequency term)
      documentCount := do return (← HeldTables.demand held.contents).size
      postings term := .ok (terms.docSet term)
      content doc := do return (← HeldTables.demand held.contents).content? doc
      documents := do return (← HeldTables.demand held.contents).ids }

def view (x : MemoryIndex) : IndexView := viewOf x.tables

/-- The figures of the index, none if it holds nothing. -/
def statistics (x : MemoryIndex) : List (Text × Json) :=
  match x.tables.terms, x.tables.statistics with
  | some terms, some statistics =>
    [("index_name".toText, x.name), ("document_count".toText, x.documentCount),
      ("vocabulary_size".toText, .int terms.dictionary.size),
      ("total_tokens".toText, .int statistics.words),
      ("avg_document_length".toText, statistics.mean),
      ("stemmer".toText, .str x.analyzer.stemmer.name),
      ("created_at".toText, (x.created.map Json.str).getD .null)]
  | _, _ => []

end MemoryIndex

end Concordance
