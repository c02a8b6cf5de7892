import Concordance.DocSet
import Concordance.Failure
import Concordance.Query.Token

/-!
# Evaluation of boolean queries

Connectives have no precedence: each is applied as soon as its right operand is
there. Every level of parentheses keeps a stack of sets and at most one connective
that waits for an operand. A level that is not closed ends with the query, and a
parenthesis that closes no level ends the query.
-/
namespace Concordance

def Operator.apply : Operator → DocSet → DocSet → DocSet
  | and, left, right => left.inter right
  | or, left, right => left.union right
  | not, left, right => left.diff right

/-- One level of parentheses: its sets, the last one first, and the connective that waits. -/
structure Level where
  sets : List DocSet
  pending : Option Operator
  deriving DecidableEq

namespace Level

def start : Level := ⟨[], none⟩

/-- Applies the waiting connective to the last two sets, if there are two. -/
def reduce (level : Level) : Level :=
  match level.pending, level.sets with
  | some op, right :: left :: rest => ⟨op.apply left right :: rest, none⟩
  | _, _ => level

/-- Adds a set and applies the connective that waits for it. -/
def push (level : Level) (s : DocSet) : Level := reduce { level with sets := s :: level.sets }

/-- The last set; none is the empty one. -/
def top (level : Level) : DocSet := level.sets.head?.getD .empty

/-- The value of a level that ends: a connective behind two operands is applied. -/
def value (level : Level) : DocSet := level.reduce.top

end Level

/-- The value of a level inside others, all of which end together. -/
def closeAll (outer : List Level) (level : Level) : DocSet :=
  outer.foldl (fun s up => (up.push s).value) level.value

/-- How deep parentheses may nest. -/
structure DepthLimit where
  greatest : Int
  shown : Text

def DepthLimit.whole (n : Int) : DepthLimit := ⟨n, decimal n⟩

/-- Evaluates the level `level` inside the levels `outer`, the nearest first, to the end of the
outermost of them. Gives its value and the symbols behind its end. The level has depth `depth`. -/
def evaluateFrom (lookup : Text → Except Failure DocSet) (limit : DepthLimit) (depth : Nat)
    (outer : List Level) (level : Level) : List Symbol → Except Failure (DocSet × List Symbol)
  | [] => .ok (closeAll outer level, [])
  | .opening :: rest =>
    if limit.greatest < (depth + 1 : Nat) then .error (.tooDeep limit.shown)
    else evaluateFrom lookup limit (depth + 1) (level :: outer) .start rest
  | .closing :: rest =>
    match outer with
    | [] => .ok (level.value, rest)
    | up :: outer => evaluateFrom lookup limit (depth - 1) outer (up.push level.value) rest
  | .connective op :: rest =>
    evaluateFrom lookup limit depth outer { level with pending := some op } rest
  | .word w :: rest =>
    match lookup w with
    | .ok s => evaluateFrom lookup limit depth outer (level.push s) rest
    | .error e => .error e

/-- Evaluates one level of parentheses from its beginning, at the given depth. -/
def evaluateGroup (lookup : Text → Except Failure DocSet) (limit : DepthLimit) (depth : Nat)
    (symbols : List Symbol) : Except Failure (DocSet × List Symbol) :=
  if limit.greatest < depth then .error (.tooDeep limit.shown)
  else evaluateFrom lookup limit depth [] .start symbols

/-- The documents that a query of the given tokens matches. -/
def evaluate (lookup : Text → Except Failure DocSet) (limit : DepthLimit) (tokens : List Text) :
    Except Failure DocSet :=
  (evaluateGroup lookup limit 0 (tokens.map Symbol.ofToken)).map Prod.fst

end Concordance
