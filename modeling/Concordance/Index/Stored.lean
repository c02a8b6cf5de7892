import Concordance.Index.Database
import Concordance.Json.Reader
import Concordance.Json.Restored
import Concordance.Json.Writer
import Concordance.Log
import Concordance.Storage

/-!
# Stored indexes

What the files of an index hold, and what an operation on an index does. A value is
read in the form in which it was written: in binary form as it was, in text as a reader
of JSON restores it. A file of another origin may hold any text.
-/
namespace Concordance

/-- How a value is written in a file. -/
inductive Form where
  | line
  | lines
  | binary
  deriving DecidableEq

/-- What a file holds. -/
inductive Content where
  | bytes (b : ByteArray)
  | value (form : Form) (j : Json)
  | database (db : Database)

namespace Content

/-- What is left of a value whose writing failed: an object that is opened and never closed. -/
def begun : Content := .bytes "\x7b\n".toUTF8

def ofText : Content → Except Failure Json
  | .value .line j | .value .lines j => .ok j.restored
  | .bytes b =>
    match String.fromUTF8? b with
    | none => .error .undecodable
    | some t =>
      match Json.parse? t.toText with
      | some j => .ok j
      | none => .error .notJson
  | _ => .error .notInText

def ofBinary : Content → Except Failure Json
  | .value .binary j => .ok j
  | _ => .error .notInBinary

/-- The bytes of a file as far as a reader of lines can tell: what is in binary form is no text, and
of a database a single line can be read, which is no value. -/
def toBytes : Content → ByteArray
  | .bytes b => b
  | .value .line j => (stringOf j.render).toUTF8
  | .value .lines j => (stringOf j.renderLines).toUTF8
  | .value .binary _ => ⟨#[0x80]⟩
  | .database _ => "MANIFEST\n".toUTF8

end Content

/-- The storage of indexes and of the files beside them. -/
abbrev IndexStorage := Storage Content

/-- What comes of an operation on an index of type `σ`: the index and the storage afterwards, what
is reported, and the failure, if it failed. -/
structure Outcome (σ : Type) where
  index : σ
  storage : IndexStorage
  log : List LogLine
  failure : Option Failure

def Outcome.report {σ : Type} (line : LogLine) (o : Outcome σ) : Outcome σ :=
  { o with log := line :: o.log }

def Outcome.map {σ τ : Type} (f : σ → τ) (o : Outcome σ) : Outcome τ :=
  ⟨f o.index, o.storage, o.log, o.failure⟩

end Concordance
