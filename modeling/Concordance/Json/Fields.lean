import Concordance.Failure
import Concordance.Json

/-!
# Taking values apart

How the parts of a stored value are reached, and what goes wrong when the value
is not of the kind that has them.
-/
namespace Concordance.Json

def field (name : Text) : Json → Except Failure Json
  | .obj members =>
    match members.lookup name with
    | some value => .ok value
    | none => .error (.missing name)
  | _ => .error .wrongKind

/-- The members of a value, of which only an object has any. -/
def members : Json → List (Text × Json)
  | .obj members => members
  | _ => []

/-- The members of a value that has to be an object. -/
def membersOf : Json → Except Failure (List (Text × Json))
  | .obj members => .ok members
  | _ => .error .noMembers

/-- What a value runs through: the items of a list, the characters of a text, or the names of the
members of an object. -/
def elements : Json → Except Failure (List Json)
  | .arr items => .ok items
  | .str t => .ok (t.map fun c => .str [c])
  | .obj members => .ok (members.map fun m => .str m.1)
  | _ => .error .wrongKind

/-- The single characters among what a value runs through. Lists and objects cannot be told from
characters. -/
def characters (j : Json) : Except Failure Text := do
  let chosen ← (← j.elements).mapM fun
    | .str [c] => .ok [c]
    | .arr _ | .obj _ => .error .wrongKind
    | _ => .ok []
  return chosen.flatten

/-- Whether a value is left open: three question marks stand for one. -/
def isOpen : Json → Bool
  | .str t => t = "???".toText
  | _ => false

/-- The text that a value equals, by which it finds the entry of a table. Lists and objects are no
keys. -/
def toName : Json → Except Failure (Option Text)
  | .str t => .ok (some t)
  | .arr _ | .obj _ => .error .wrongKind
  | _ => .ok none

def text : Json → Except Failure Text
  | .str t => .ok t
  | _ => .error .wrongKind

theorem text_eq_ok_iff {j : Json} {t : Text} : j.text = .ok t ↔ j = .str t := by
  cases j <;> simp [text]

def wholeNumber : Json → Except Failure Int
  | .int n => .ok n
  | .bool b => .ok (if b then 1 else 0)
  | _ => .error .wrongKind

end Concordance.Json
