import Concordance.CollectionStatistics
import Concordance.Index.Stored
import Concordance.InvertedIndex

/-!
# Saved tables

An index in memory is kept as three tables, which grow together. They are saved as one
file for each of them, in text or in binary form, beside a file of metadata.
-/
namespace Concordance

/-- The format in which tables are saved, as it is set. -/
inductive TableFormat where
  | value (j : Json)
  /-- A part of the settings that has parts of its own, and is no value that can be saved. -/
  | part

namespace TableFormat

def ofSetting : Json → TableFormat
  | .arr _ | .obj _ => .part
  | j => .value j

/-- The form in which tables are written: text if the format is json, else a binary form. -/
def form : TableFormat → Form
  | .value (.str t) => if t = "json".toText then .line else .binary
  | _ => .binary

end TableFormat

/-- How ids are kept in a form: text has no other keys than names. -/
def Form.keys : Form → IdKeys
  | .line | .lines => .names
  | .binary => .numbers

/-- Whether ids can be written in a form: text takes integers of no more than `maxDigits` digits.
The counts of an index are never so long. -/
def Form.takes (form : Form) (ids : List Int) : Bool := form = .binary || ids.all isWritable

/-- The tables of an index. -/
structure Tables where
  terms : InvertedIndex Int
  contents : DocumentStore Text
  statistics : CollectionStatistics Int

namespace Tables

def empty : Tables := ⟨.empty, .empty, .empty⟩

/-- The tables with one more document of the given terms, one table after the other. An id that is
taken is refused before anything changes; what was done before a later failure stays. A mean that is
no double is no failure here: no index has so many words. -/
def add (t : Tables) (doc : Int) (text : Text) (terms : List Text) : Tables × Option Failure :=
  match t.contents.add doc text with
  | .error e => (t, some e)
  | .ok contents =>
    match t.statistics.record doc terms.length with
    | (statistics, some (.lengthRecorded d)) =>
      ({ t with contents := contents, statistics := statistics }, some (.lengthRecorded d))
    | (statistics, _) => (⟨t.terms.add doc terms, contents, statistics⟩, none)

def metadataFile : Text := "metadata.json".toText

def termsFile : Text := "inverted_index.dat".toText

def contentsFile : Text := "doc_store.dat".toText

def statisticsFile : Text := "statistics.dat".toText

/-- The files in which tables are saved beside their metadata, which are always text. -/
def files (t : Tables) (form : Form) (metadata : List (Text × Json)) : List (Text × Content) :=
  [(metadataFile, .value .lines (.obj metadata)), (termsFile, .value form t.terms.toJson),
    (contentsFile, .value form (t.contents.write form.keys .str)),
    (statisticsFile, .value form (t.statistics.write form.keys))]

/-- What is left of the files when an id cannot be written: the first table that has such an id is
begun, and no other one follows. -/
def begunFiles (t : Tables) (form : Form) (metadata : List (Text × Json)) : List (Text × Content) :=
  (metadataFile, .value .lines (.obj metadata)) ::
    if form.takes t.terms.ids then
      [(termsFile, .value form t.terms.toJson), (contentsFile, .begun)]
    else [(termsFile, .begun)]

/-- The value that is saved in a file of a folder. -/
def saved (storage : IndexStorage) (folder : Path) (form : Form) (file : Text) :
    Except Failure Json := do
  let content ← storage.read (folder.child file)
  if form = .binary then content.ofBinary else content.ofText

def savedTerms (storage : IndexStorage) (folder : Path) (form : Form) :
    Except Failure (InvertedIndex Int) := do
  InvertedIndex.ofJson (← saved storage folder form termsFile)

def savedContents (storage : IndexStorage) (folder : Path) (form : Form) :
    Except Failure (DocumentStore Text) := do
  DocumentStore.read form.keys Json.text (← saved storage folder form contentsFile)

def savedStatistics (storage : IndexStorage) (folder : Path) (form : Form) :
    Except Failure (CollectionStatistics Int) := do
  CollectionStatistics.read form.keys (← saved storage folder form statisticsFile)

end Tables

/-- The tables that an index holds. They are loaded one after the other, so that a table may be
there without the next one, or beside one of another index. -/
structure HeldTables where
  terms : Option (InvertedIndex Int)
  contents : Option (DocumentStore Text)
  statistics : Option (CollectionStatistics Int)

namespace HeldTables

def none : HeldTables := ⟨.none, .none, .none⟩

def all (t : Tables) : HeldTables := ⟨some t.terms, some t.contents, some t.statistics⟩

/-- A table that is asked for without a look at whether it is there. -/
def demand {α : Type} (table : Option α) : Except Failure α :=
  match table with
  | some t => .ok t
  | .none => .error .noMembers

/-- The tables after those in a folder have been loaded. What was loaded before a failure stays. -/
def load (held : HeldTables) (storage : IndexStorage) (folder : Path) (form : Form) :
    HeldTables × Option Failure :=
  match Tables.savedTerms storage folder form with
  | .error e => (held, some e)
  | .ok terms =>
    let held := { held with terms := some terms }
    match Tables.savedContents storage folder form with
    | .error e => (held, some e)
    | .ok contents =>
      let held := { held with contents := some contents }
      match Tables.savedStatistics storage folder form with
      | .error e => (held, some e)
      | .ok statistics => ({ held with statistics := some statistics }, .none)

end HeldTables

end Concordance
