import Concordance.Failure
import Concordance.Json
import Concordance.Number.Integer
import Concordance.Number.Dyadic

/-!
# Values as integers

The integer that a JSON value stands for: a truth value is zero or one, a double
loses its fraction, and a text is read. A key is the integer that a value equals.
-/
namespace Concordance.Json

def toInteger : Json → Except Failure Int
  | .int n => .ok n
  | .bool b => .ok (if b then 1 else 0)
  | .float x =>
    match Dyadic.ofFloat x with
    | some d => .ok d.truncate
    | none => .error (if x.isNaN then .notAnInteger else .infinite)
  | .str t =>
    match readInteger t with
    | some n => .ok n
    | none => .error .notAnInteger
  | .null | .arr _ | .obj _ => .error .wrongKind

/-- The integer that a value equals, by which it finds the entry of a table. Lists and objects
are no keys. -/
def toKey : Json → Except Failure (Option Int)
  | .int n => .ok (some n)
  | .bool b => .ok (some (if b then 1 else 0))
  | .float x => .ok ((Dyadic.ofFloat x).bind fun d => if d.isWhole then some d.truncate else none)
  | .str _ | .null => .ok none
  | .arr _ | .obj _ => .error .wrongKind

end Concordance.Json
