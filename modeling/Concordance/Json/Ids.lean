import Concordance.Json.Fields
import Concordance.Json.Integer
import Concordance.Table

/-!
# Tables with ids as keys

A table whose keys are ids is kept as a value in one of two ways: text has ids as the
names of members, a binary form has them as the numbers that they are.
-/
namespace Concordance

variable {α : Type}

/-- How the ids of a table are kept. -/
inductive IdKeys where
  /-- In decimal, as the names of an object. -/
  | names
  /-- As numbers, each of which begins a pair. -/
  | numbers
  deriving DecidableEq

namespace IdKeys

def write (keys : IdKeys) (encode : α → Json) (t : Table Int α) : Json :=
  match keys with
  | names => .obj (t.entries.map fun e => (decimal e.1, encode e.2))
  | numbers => .arr (t.entries.map fun e => .arr [.int e.1, encode e.2])

def pairOf : Json → Except Failure (Json × Json)
  | .arr [key, value] => .ok (key, value)
  | _ => .error .noMembers

/-- The keys and the values of a table, as they are kept. -/
def pairs (keys : IdKeys) (j : Json) : Except Failure (List (Json × Json)) :=
  match keys with
  | names => do return (← j.membersOf).map fun m => (.str m.1, m.2)
  | numbers => do (← j.elements).mapM pairOf

def entryOf (decode : Json → Except Failure α) (pair : Json × Json) : Except Failure (Int × α) := do
  let doc ← pair.1.toInteger
  return (doc, ← decode pair.2)

/-- The table that is kept as a value. Of two keys for one id the later one counts. -/
def read (keys : IdKeys) (decode : Json → Except Failure α) (j : Json) :
    Except Failure (Table Int α) := do
  return .ofList (← (← keys.pairs j).mapM (entryOf decode))

end IdKeys

end Concordance
