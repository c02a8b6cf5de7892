import Concordance.Postings

/-!
# Lists of postings

The postings of a term as they are filled and asked. The set of their documents is kept
once it has been asked for, and is dropped as soon as something is added.
-/
namespace Concordance

variable {α : Type}

/-- Postings with the set of their documents, if that is kept. -/
structure PostingsList (α : Type) where
  postings : Postings α
  kept : Option DocSet
  deriving DecidableEq

namespace PostingsList

def empty : PostingsList α := ⟨.empty, none⟩

/-- Adds `f` occurrences in the document `d`. The list stays as it is if that fails. -/
def add [Amount α] (l : PostingsList α) (d : Int) (f : α) : PostingsList α × Option Failure :=
  match l.postings.add? d f with
  | .ok p => (⟨p, none⟩, none)
  | .error e => (l, some e)

/-- The set of the documents, and the list that keeps it. -/
def docSet (l : PostingsList α) : DocSet × PostingsList α :=
  match l.kept with
  | some docs => (docs, l)
  | none => (l.postings.docSet, { l with kept := some l.postings.docSet })

/-- A list that is stored as a value. No set is stored with it. -/
def ofJson [Amount α] (j : Json) : Except Failure (PostingsList α) := do
  return ⟨← Postings.ofJson j, none⟩

end PostingsList

end Concordance
