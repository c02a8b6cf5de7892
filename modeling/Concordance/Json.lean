import Concordance.Text

/-!
# JSON values

Values as they stand in a dataset or in stored metadata. Integers and doubles
are kept apart, since a number is an integer exactly when it is written without
a point and without an exponent. The members of an object keep the order in
which their names first occur.
-/
namespace Concordance

/-- A JSON value. -/
inductive Json where
  | null
  | bool (b : Bool)
  | int (n : Int)
  | float (x : Float)
  | str (t : Text)
  | arr (items : List Json)
  | obj (members : List (Text × Json))

namespace Json

instance : Inhabited Json := ⟨.null⟩

/-- The value of a member, if there is one of that name. -/
def find? (name : Text) (members : List (Text × Json)) : Option Json :=
  members.lookup name

/-- Gives a member a value, in its old place or else at the end. -/
def setMember (name : Text) (value : Json) : List (Text × Json) → List (Text × Json)
  | [] => [(name, value)]
  | (n, v) :: rest => if n = name then (n, value) :: rest else (n, v) :: setMember name value rest

def dropMember (name : Text) (members : List (Text × Json)) : List (Text × Json) :=
  members.filter (·.1 != name)

/-- Whether a value counts as missing: null, false, zero, or without any content. -/
def isEmpty : Json → Bool
  | null => true
  | bool b => !b
  | int n => n == 0
  | float x => x == 0.0
  | str t => t.isEmpty
  | arr items => items.isEmpty
  | obj members => members.isEmpty

end Json

end Concordance
