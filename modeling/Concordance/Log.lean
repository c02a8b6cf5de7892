import Concordance.Text

/-!
# Log lines

What is reported beside the answer of an operation. Lines of the indexes and of the
dataset are told apart from those of the commands that use them.
-/
namespace Concordance

/-- How serious a log line is. -/
inductive Severity where
  | info
  | warning
  | error
  deriving DecidableEq

/-- Where a log line comes from. -/
inductive Origin where
  | library
  | command
  deriving DecidableEq

/-- A log line. -/
structure LogLine where
  origin : Origin
  severity : Severity
  text : Text
  deriving DecidableEq

namespace LogLine

def warning (text : Text) : LogLine := ⟨.library, .warning, text⟩

def error (text : Text) : LogLine := ⟨.library, .error, text⟩

end LogLine

end Concordance
