import Concordance.Json.Fields
import Concordance.Json.Integer
import Concordance.Json.Reader
import Concordance.Log
import Concordance.Text.Blank
import Concordance.Text.Utf8

/-!
# Datasets

A dataset has a document on every line, as a JSON object. A line that cannot be read
is reported and left out, and blank lines are passed over; each line counts for the
numbering all the same. What ends the loading is an infinite id, a field that is left
open, or a fault in the encoding of the file.
-/
namespace Concordance

/-- A document as it is offered to an index: its id and its content, which may be any value. -/
abbrev Document := Int × Json

/-- How a dataset is read. -/
structure DatasetOptions where
  /-- The member that holds the id, if one does. Other documents have the number of their line. -/
  idField : Json
  /-- The member that holds the content, if one does. Other documents are empty. -/
  textField : Json
  /-- The number of lines that are looked at, all of them if it is nothing. -/
  sampleSize : Json

namespace Dataset

/-- The lines of a text without their ends, which are a line feed, a carriage return, or both in
this order. -/
def lines : Text → List Text
  | [] => []
  | '\r' :: '\n' :: rest => [] :: lines rest
  | c :: rest =>
    if c = '\n' || c = '\r' then [] :: lines rest
    else match lines rest with
      | [] => [[c]]
      | line :: others => (c :: line) :: others

/-- The lines that are known to be complete when a text breaks off. A carriage return at its end may
be half of an end. -/
def completeLines (t : Text) : List Text :=
  let known := if t.getLast? = some '\r' then t.dropLast else t
  (lines (known ++ [.char ' '])).dropLast

/-- The member that a field names, or `default` if there is none. The field may not be left open. -/
def memberOr (default field : Json) (members : List (Text × Json)) : Except Failure Json :=
  if field.isOpen then .error .leftOpen
  else match field with
    | .str name => .ok ((Json.find? name members).getD default)
    | _ => .ok default

/-- The document on a line that has the given number, or none if the line is blank. -/
def readLine (o : DatasetOptions) (number : Nat) (line : Text) : Except Failure (Option Document) :=
  if line.all isBlank then .ok none
  else match Json.parse? line with
    | none => .error .notJson
    | some (.obj members) => do
      let doc ← (← memberOr (.int number) o.idField members).toInteger
      return some (doc, ← memberOr (.str []) o.textField members)
    | some _ => .error .noMembers

/-- What comes of loading: the documents up to its end, what is reported, and the failure with which
it ended. -/
structure Loaded where
  documents : List Document
  log : List LogLine
  failure : Option Failure

namespace Loaded

/-- Nothing more is loaded, and the loading ends with a failure, if with any. -/
def ended (failure : Option Failure) : Loaded := ⟨[], [], failure⟩

def cons (d : Document) (l : Loaded) : Loaded := { l with documents := d :: l.documents }

def report (line : LogLine) (l : Loaded) : Loaded := { l with log := line :: l.log }

end Loaded

/-- What is reported of a line that cannot be read. -/
def lineError (number : Nat) (reason : Failure) : LogLine :=
  .warning ("Error parsing line ".toText ++ decimal number ++ ": ".toText ++ reason.message)

def ends (reason : Failure) : Bool := reason = .infinite || reason = .leftOpen

/-- Loads the remaining lines, the first of which has the given number. `fault` is the failure that
follows them. -/
def loadFrom (o : DatasetOptions) (fault : Option Failure) (number : Nat) : List Text → Loaded
  | [] => .ended fault
  | line :: rest =>
    match readLine o number line with
    | .ok none => loadFrom o fault (number + 1) rest
    | .ok (some d) => (loadFrom o fault (number + 1) rest).cons d
    | .error reason =>
      if ends reason then .ended (some reason)
      else (loadFrom o fault (number + 1) rest).report (lineError number reason)

/-- The least natural number that is not less than a number. -/
def atLeast (d : Dyadic) : Nat := (if d.isWhole then d.floor else d.floor + 1).toNat

def limit (sampleSize : Json) : Except Failure (Option Nat) :=
  match sampleSize with
  | .null => .ok none
  | .float x =>
    match Dyadic.ofFloat x with
    | some d => .ok (some (atLeast d))
    | none => .ok (if x < 0.0 then some 0 else none)
  | size => size.wholeNumber.map fun n => some n.toNat

/-- Loads a dataset from its lines. `fault` is the failure that follows the last one. The line
behind those that are looked at is asked for all the same. -/
def load (o : DatasetOptions) (fault : Option Failure) (all : List Text) : Loaded :=
  if all.isEmpty then .ended fault
  else match limit o.sampleSize with
    | .error e => .ended (some e)
    | .ok none => loadFrom o fault 1 all
    | .ok (some k) =>
      if k < all.length then loadFrom o none 1 (all.take k) else loadFrom o fault 1 all

def loadBytes (o : DatasetOptions) (bytes : ByteArray) : Loaded :=
  match String.fromUTF8? bytes with
  | some text => load o none (lines text.toText)
  | none => load o (some .undecodable) (completeLines (Utf8.decode bytes.toList))

end Dataset

def sampleDocuments : List Document :=
  [(1, .str "The quick brown fox jumps over the lazy dog dogs".toText),
    (2, .str "A cat sleeps on the mat".toText),
    (3, .str "The dog barking loudly dogs".toText)]

end Concordance
