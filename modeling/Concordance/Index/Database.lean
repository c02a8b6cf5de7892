import Concordance.Json.Ids
import Concordance.Json.Restored
import Concordance.Order
import Concordance.Table

/-!
# Databases

A database keeps records under texts: the postings of a term and a document each under
a key of their own, and what it says of itself under one more key. Every record is the
JSON text of a value, which is read anew whenever it is asked for.
-/
namespace Concordance

/-- A count that is kept as a value. -/
def Json.count (j : Json) : Except Failure Nat := do return (← j.wholeNumber).toNat

/-- A document in a database. -/
structure StoredDocument where
  content : Text
  length : Nat
  deriving DecidableEq

namespace StoredDocument

def toJson (d : StoredDocument) : Json :=
  .obj [("content".toText, .str d.content), ("length".toText, .int d.length)]

def ofJson (j : Json) : Except Failure StoredDocument := do
  return ⟨← (← j.field "content".toText).text, ← (← j.field "length".toText).count⟩

end StoredDocument

/-- What a database says of itself once it is complete. -/
structure Catalogue where
  name : Text
  documentCount : Nat
  termCount : Nat
  documents : List Int
  stemmer : Text

namespace Catalogue

def toJson (c : Catalogue) : Json :=
  .obj [("index_id".toText, .str c.name), ("doc_count".toText, .int c.documentCount),
    ("term_count".toText, .int c.termCount),
    ("doc_ids".toText, .arr (c.documents.map .int)), ("stemmer".toText, .str c.stemmer)]

/-- The number of documents of the catalogue that is kept as a value. -/
def documentCountOf (j : Json) : Except Failure Nat := do (← j.field "doc_count".toText).count

/-- The documents of the catalogue that is kept as a value. -/
def documentsOf (j : Json) : Except Failure (List Int) := do
  (← (← j.field "doc_ids".toText).elements).mapM Json.wholeNumber

end Catalogue

/-- Postings as a value, with the ids in decimal. -/
def postingsToJson (p : Table Int Nat) : Json := IdKeys.names.write (fun n : Nat => .int n) p

def postingsOfJson (j : Json) : Except Failure (Table Int Nat) := IdKeys.names.read Json.count j

/-- The content of a database, with each value as it was written. -/
structure Database where
  records : Table Text Json

namespace Database

def termKey (term : Text) : Text := "term:".toText ++ term

/-- The key of the document whose id is shown as a text. -/
def documentKey (shown : Text) : Text := "doc:".toText ++ shown

def catalogueKey : Text := "__metadata__".toText

def empty : Database := ⟨.empty⟩

/-- The database with a record under a key, in place of the one it may have. -/
def put (db : Database) (key : Text) (record : Json) : Database := ⟨db.records.set key record⟩

/-- The record under a key, as it is read. -/
def read? (db : Database) (key : Text) : Option Json := (db.records.get? key).map Json.restored

/-- The postings of a term, none if the term is not there. -/
def postings (db : Database) (term : Text) : Except Failure (Table Int Nat) :=
  match db.read? (termKey term) with
  | some j => postingsOfJson j
  | none => .ok .empty

def documentAt (db : Database) (shown : Text) : Except Failure (Option StoredDocument) :=
  match db.read? (documentKey shown) with
  | some j => (StoredDocument.ofJson j).map some
  | none => .ok none

def document? (db : Database) (doc : Int) : Except Failure (Option StoredDocument) :=
  db.documentAt (decimal doc)

/-- Whether there is a record of a document. -/
def hasDocument (db : Database) (doc : Int) : Bool :=
  (db.records.get? (documentKey (decimal doc))).isSome

/-- What a database says of itself, if it is complete. -/
def catalogue? (db : Database) : Option Json := db.read? catalogueKey

end Database

/-- A database that is being built. Documents are written at once; postings are kept beside it. -/
structure Draft where
  database : Database
  terms : Table Text (Table Int Nat)
  /-- The ids of the documents that were taken in, in their order. -/
  documents : List Int

namespace Draft

def empty : Draft := ⟨.empty, .empty, []⟩

/-- The postings of terms with `n` occurrences of a term in a document. -/
def count (doc : Int) (terms : Table Text (Table Int Nat)) (entry : Text × Nat) :
    Table Text (Table Int Nat) :=
  terms.set entry.1 (((terms.get? entry.1).getD .empty).set doc entry.2)

/-- The draft with one more document of the given terms. -/
def add (d : Draft) (doc : Int) (text : Text) (terms : List Text) : Draft where
  database := d.database.put (Database.documentKey (decimal doc))
    (StoredDocument.mk text terms.length).toJson
  terms := (Table.tally terms).entries.foldl (count doc) d.terms
  documents := d.documents ++ [doc]

def describe (d : Draft) (name stemmer : Text) : Catalogue where
  name := name
  documentCount := d.documents.length
  termCount := d.terms.size
  documents := sortBy (fun a b => a ≤ b) d.documents
  stemmer := stemmer

def withTerms (d : Draft) : Database :=
  d.terms.entries.foldl (fun db e => db.put (Database.termKey e.1) (postingsToJson e.2)) d.database

def complete (d : Draft) (c : Catalogue) : Database :=
  d.withTerms.put Database.catalogueKey c.toJson

end Draft

end Concordance
