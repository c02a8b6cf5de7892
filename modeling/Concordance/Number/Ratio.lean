import Concordance.Failure
import Concordance.Number.Dyadic

/-!
# Ratios of counts

The quotient of two integers as a double, with what goes wrong told as a failure.
-/
namespace Concordance

def ratio (num den : Int) : Except Failure Dyadic :=
  match quotient num den with
  | .ok d => .ok d
  | .error .byZero => .error .divisionByZero
  | .error .overflow => .error .quotientOverflow

end Concordance
