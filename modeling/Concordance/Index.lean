import Concordance.Index.DatabaseIndex
import Concordance.Index.MemoryIndex

/-!
# Indexes

An index of either kind, with the operations that both have.
-/
namespace Concordance

/-- An index. -/
inductive Index where
  | memory (x : MemoryIndex)
  | database (x : DatabaseIndex)

namespace Index

def analyzer : Index → Analyzer
  | memory x => x.analyzer
  | database x => x.analyzer

def home : Index → Path
  | memory x => x.home
  | database x => x.home

def describe : Index → Text
  | memory x => x.identity.describe
  | database x => x.identity.describe

def view : Index → IndexView
  | memory x => x.view
  | database x => x.view

/-- Creates and stores an index of that name, which has to be a text, at the moment `now`. -/
def create (x : Index) (storage : IndexStorage) (now : Text) (name : Json) (entries : List Json) :
    Outcome Index :=
  match x with
  | memory x => (x.create storage now name entries).map .memory
  | database x => (x.create storage name entries).map .database

def load (x : Index) (storage : IndexStorage) (path : Path) : Outcome Index :=
  match x with
  | memory x => (x.load storage path).map .memory
  | database x => (x.load storage path).map .database

def delete (x : Index) (storage : IndexStorage) (name : Text) : Outcome Index :=
  match x with
  | memory x => (x.delete storage name).map .memory
  | database x => (x.delete storage name).map .database

def stored (x : Index) (storage : IndexStorage) : Except Failure (List Text) :=
  match x with
  | memory x => x.stored storage
  | database x => x.stored storage

/-- What is read of an index of either kind, if it holds something. -/
def reading {α : Type} (x : Index)
    (fromTables : InvertedIndex Int → HeldTables → Except Failure α)
    (fromDatabase : Database → Except Failure α) : Except Failure α :=
  match x with
  | memory x => match x.tables.terms with
    | some terms => fromTables terms x.tables
    | none => .error .notLoaded
  | database x => match x.opened with
    | some db => fromDatabase db
    | none => .error .notLoaded

/-- The term that a value stands for: in memory a text, in a database what is shown of it. -/
def termOf (x : Index) (term : Json) : Except Failure (Option Text) :=
  x.reading (fun _ _ => term.toName) fun _ => do return some (← term.shown)

/-- The content of the document with a given id, which may be any value: in memory a number that
equals the id, in a database what is shown as the id is. -/
def contentBy (x : Index) (id : Json) : Except Failure (Option Text) :=
  x.reading (fun _ held => do
      let contents ← HeldTables.demand held.contents
      return (← id.toKey).bind contents.content?)
    fun db => do return (← db.documentAt (← id.shown)).map (·.content)

/-- The length of the document with a given id, which may be any value. It is never less than
one. -/
def lengthBy (x : Index) (id : Json) : Except Failure Int :=
  x.reading (fun _ held => do
      let statistics ← HeldTables.demand held.statistics
      return max (((← id.toKey).bind statistics.length?).getD 1) 1)
    fun db => do return (max (((← db.documentAt (← id.shown)).map (·.length)).getD 1) 1 : Nat)

/-- How often a term occurs in the document with a given id, which may be any value. -/
def frequencyBy (x : Index) (term : Text) (id : Json) : Except Failure Int :=
  x.reading (fun terms _ => terms.frequencyBy term id)
    fun db => do
      let postings ← db.postings term
      return ((← id.toKey).bind postings.get?).getD (0 : Nat)

def close : Index → Index
  | memory x => .memory x
  | database x => .database x.close

end Index

end Concordance
