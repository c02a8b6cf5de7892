import Concordance.Json
import Concordance.Text.Surrogates

/-!
# Values that are read back

What a reader of JSON makes of the text of a value. It is the value itself, but for the
surrogate pairs in its strings: each is read as one character. Of two members whose names
are then the same the later value counts.
-/
namespace Concordance.Json

mutual

/-- What is read of the text of a value. -/
def restored : Json → Json
  | .str t => .str (paired t)
  | .arr items => .arr (restoredItems items)
  | .obj members => .obj (restoredMembers [] members)
  | value => value

def restoredItems : List Json → List Json
  | [] => []
  | item :: rest => restored item :: restoredItems rest

/-- The members that are read, added to those that have been read. -/
def restoredMembers (read : List (Text × Json)) : List (Text × Json) → List (Text × Json)
  | [] => read
  | (name, value) :: rest => restoredMembers (setMember (paired name) (restored value) read) rest

end

end Concordance.Json
