import Concordance.Index

/-!
# Sequences of calls

An index is used together with the storage in which it keeps itself: indexes are created,
loaded and deleted one after the other, whether the calls succeed or not.
-/
namespace Concordance

/-- A call that may change an index or what is stored. -/
inductive Call where
  | create (now : Text) (name : Json) (entries : List Json)
  | load (path : Path)
  | delete (name : Text)

structure Session where
  index : Index
  storage : IndexStorage

namespace Session

def outcome (s : Session) : Call → Outcome Index
  | .create now name entries => s.index.create s.storage now name entries
  | .load path => s.index.load s.storage path
  | .delete name => s.index.delete s.storage name

/-- The session after a call, which may have failed. -/
def after (s : Session) (c : Call) : Session := ⟨(s.outcome c).index, (s.outcome c).storage⟩

def run (s : Session) (calls : List Call) : Session := calls.foldl after s

theorem run_append (s : Session) (calls : List Call) (c : Call) :
    s.run (calls ++ [c]) = (s.run calls).after c := by
  rw [run, List.foldl_append]
  rfl

/-- What every call keeps is kept by any number of calls. -/
theorem run_invariant {P : Session → Prop} (hstep : ∀ s c, P s → P (s.after c)) {s : Session}
    (hs : P s) (calls : List Call) : P (s.run calls) := by
  induction calls generalizing s with
  | nil => exact hs
  | cons c rest ih => exact ih (hstep s c hs)

end Session

end Concordance
