import Concordance.Json.Ids
import Concordance.Order

/-!
# Document contents

The contents of the documents of an index. A document that is stored is never
replaced.
-/
namespace Concordance

variable {α : Type}

/-- The contents of documents by their ids. -/
structure DocumentStore (α : Type) where
  contents : Table Int α

namespace DocumentStore

def empty : DocumentStore α := ⟨.empty⟩

instance : Inhabited (DocumentStore α) := ⟨empty⟩

/-- Stores a document under an id that is still free. -/
def add (store : DocumentStore α) (doc : Int) (content : α) : Except Failure (DocumentStore α) :=
  if store.contents.contains doc then .error (.documentExists doc)
  else .ok ⟨store.contents.set doc content⟩

def content? (store : DocumentStore α) (doc : Int) : Option α := store.contents.get? doc

def contains (store : DocumentStore α) (doc : Int) : Bool := store.contents.contains doc

def ids (store : DocumentStore α) : List Int := sortBy (fun a b => a ≤ b) store.contents.keys

def size (store : DocumentStore α) : Nat := store.contents.size

/-- A store as a value, with its ids kept in the given way. -/
def write (keys : IdKeys) (encode : α → Json) (store : DocumentStore α) : Json :=
  .obj [("documents".toText, keys.write encode store.contents)]

/-- The store that is kept as a value. -/
def read (keys : IdKeys) (decode : Json → Except Failure α) (j : Json) :
    Except Failure (DocumentStore α) := do
  return ⟨← keys.read decode (← j.field "documents".toText)⟩

/-- A store as it stands in text. -/
def toJson (encode : α → Json) (store : DocumentStore α) : Json := store.write .names encode

def ofJson (decode : Json → Except Failure α) (j : Json) : Except Failure (DocumentStore α) :=
  read .names decode j

end DocumentStore

end Concordance
