import Concordance.Engine
import Concordance.Index.MemoryIndex
import Concordance.Proofs.Except
import Concordance.Proofs.Keywords
import Mathlib.Data.Set.Basic

/-!
# What well-formed queries mean

An expression is a row of operands with connectives between them, and an operand is a
word or an expression in parentheses. Connectives apply from left to right, none before
another. The evaluator keeps no tree: what carries the proof is that a row of operands,
read at the beginning of a level, leaves its meaning as the only set of the level and
no connective waiting, whatever follows.
-/
namespace Concordance

/-- A token that is looked up: it is no parenthesis and spells no keyword. -/
structure SearchWord where
  text : Text
  not_opening : text ≠ [.char '(']
  not_closing : text ≠ [.char ')']
  not_keyword : ∀ op : Operator, ¬op.Spells text

/-- A connective with one of its spellings. -/
structure Connective where
  op : Operator
  spelling : Text
  spells : op.Spells spelling

mutual

/-- What connectives stand between. -/
inductive Operand where
  | word (w : SearchWord)
  | group (e : Expression)

/-- A row of operands with connectives between them. -/
inductive Expression where
  | single (o : Operand)
  | more (e : Expression) (c : Connective) (o : Operand)

end

mutual

def Operand.nesting : Operand → Nat
  | .word _ => 0
  | .group e => e.nesting + 1

/-- How deep the parentheses of an expression nest. -/
def Expression.nesting : Expression → Nat
  | .single o => o.nesting
  | .more e _ o => max e.nesting o.nesting

end

mutual

def Operand.tokens : Operand → List Text
  | .word w => [w.text]
  | .group e => [.char '('] :: (e.tokens ++ [[.char ')']])

/-- The tokens of an expression. -/
def Expression.tokens : Expression → List Text
  | .single o => o.tokens
  | .more e c o => e.tokens ++ c.spelling :: o.tokens

end

def Operator.denote : Operator → Set Int → Set Int → Set Int
  | and, left, right => left ∩ right
  | or, left, right => left ∪ right
  | not, left, right => left \ right

mutual

def Operand.denote (words : Text → Set Int) : Operand → Set Int
  | .word w => words w.text
  | .group e => e.denote words

/-- The documents that an expression denotes where words denote the given ones. -/
def Expression.denote (words : Text → Set Int) : Expression → Set Int
  | .single o => o.denote words
  | .more e c o => c.op.denote (e.denote words) (o.denote words)

end

mutual

def Operand.value (words : Text → DocSet) : Operand → DocSet
  | .word w => words w.text
  | .group e => e.value words

/-- The set that the evaluator finds for an expression. -/
def Expression.value (words : Text → DocSet) : Expression → DocSet
  | .single o => o.value words
  | .more e c o => c.op.apply (e.value words) (o.value words)

end

theorem Operator.mem_denote {op : Operator} {s t : DocSet} {left right : Set Int} {d : Int}
    (hs : d ∈ s ↔ d ∈ left) (ht : d ∈ t ↔ d ∈ right) :
    d ∈ op.apply s t ↔ d ∈ op.denote left right := by
  cases op with
  | and => rw [apply, denote, DocSet.mem_inter, Set.mem_inter_iff, hs, ht]
  | or => rw [apply, denote, DocSet.mem_union, Set.mem_union, hs, ht]
  | not => rw [apply, denote, DocSet.mem_diff, Set.mem_sdiff, hs, ht]

section Denotation

variable (words : Text → DocSet) (d : Int)

mutual

theorem Operand.mem_value (o : Operand) :
    d ∈ o.value words ↔ d ∈ o.denote fun w => {d | d ∈ words w} := by
  cases o with
  | word w => exact Iff.rfl
  | group e => exact e.mem_value

/-- The set that the evaluator finds holds the documents that an expression denotes. -/
theorem Expression.mem_value (e : Expression) :
    d ∈ e.value words ↔ d ∈ e.denote fun w => {d | d ∈ words w} := by
  cases e with
  | single o => exact o.mem_value
  | more e c o => exact Operator.mem_denote e.mem_value o.mem_value

end

end Denotation

namespace Symbol

theorem ofToken_opening : ofToken [.char '('] = .opening := rfl

theorem ofToken_word (w : SearchWord) : ofToken w.text = .word w.text := by
  rw [ofToken, if_neg w.not_opening, if_neg w.not_closing, Operator.ofToken?_eq_none w.not_keyword]

theorem ofToken_connective (c : Connective) : ofToken c.spelling = .connective c.op := by
  have hparenthesis (p : CodePoint) (hp : p.toUpper = p) (hne : c.op.keyword ≠ [p]) :
      c.spelling ≠ [p] := by
    intro heq
    have hspells := c.spells
    rw [heq, Operator.Spells, List.map_singleton, hp] at hspells
    exact hne hspells.symm
  have hopening := hparenthesis '(' rfl (by cases c.op <;> decide)
  have hclosing := hparenthesis ')' rfl (by cases c.op <;> decide)
  rw [ofToken, if_neg hopening, if_neg hclosing, Operator.ofToken?_eq_some c.spells]

end Symbol

section Evaluation

variable (words : Text → DocSet) (limit : DepthLimit)

mutual

/-- An operand is read as one more set of the level. -/
theorem Operand.evaluateFrom_tokens (o : Operand) {depth : Nat} (hdepth : depth ≤ limit.greatest)
    (outer : List Level) (level : Level) (rest : List Symbol) :
    evaluateFrom (fun w => .ok (words w)) limit depth outer level
        (o.tokens.map Symbol.ofToken ++ rest) =
      if (depth + o.nesting : Nat) ≤ limit.greatest then
        evaluateFrom (fun w => .ok (words w)) limit depth outer (level.push (o.value words)) rest
      else .error (.tooDeep limit.shown) := by
  cases o with
  | word w =>
    rw [Operand.tokens, List.map_singleton, Symbol.ofToken_word, Operand.nesting, Nat.add_zero,
      if_pos hdepth]
    rfl
  | group e =>
    rw [Operand.tokens, List.map_cons, Symbol.ofToken_opening, List.map_append, List.cons_append,
      List.append_assoc, evaluateFrom, Operand.nesting]
    by_cases hdeeper : (depth + 1 : Nat) ≤ limit.greatest
    · rw [if_neg (by omega), e.evaluateFrom_tokens hdeeper, Nat.add_right_comm, ← Nat.add_assoc]
      rfl
    · rw [if_pos (by omega), if_neg (by omega)]

/-- A row of operands, read at the beginning of a level, leaves its value alone on the level. -/
theorem Expression.evaluateFrom_tokens (e : Expression) {depth : Nat}
    (hdepth : depth ≤ limit.greatest) (outer : List Level) (rest : List Symbol) :
    evaluateFrom (fun w => .ok (words w)) limit depth outer .start
        (e.tokens.map Symbol.ofToken ++ rest) =
      if (depth + e.nesting : Nat) ≤ limit.greatest then
        evaluateFrom (fun w => .ok (words w)) limit depth outer ⟨[e.value words], none⟩ rest
      else .error (.tooDeep limit.shown) := by
  cases e with
  | single o => exact o.evaluateFrom_tokens hdepth outer .start rest
  | more e c o =>
    rw [Expression.tokens, List.map_append, List.map_cons, Symbol.ofToken_connective,
      List.append_assoc, e.evaluateFrom_tokens hdepth, Expression.nesting]
    by_cases hleft : (depth + e.nesting : Nat) ≤ limit.greatest
    · rw [if_pos hleft, List.cons_append, evaluateFrom, o.evaluateFrom_tokens hdepth]
      by_cases hright : (depth + o.nesting : Nat) ≤ limit.greatest
      · rw [if_pos hright, if_pos (by omega)]
        rfl
      · rw [if_neg hright, if_neg (by omega)]
    · rw [if_neg hleft, if_neg (by omega)]

end

/-- A well-formed query has the value of its expression, unless it nests too deeply. -/
theorem Expression.evaluate_tokens (e : Expression) :
    evaluate (fun w => .ok (words w)) limit e.tokens =
      if e.nesting ≤ limit.greatest then .ok (e.value words)
      else .error (.tooDeep limit.shown) := by
  rw [evaluate, evaluateGroup]
  by_cases hstart : (0 : Nat) ≤ limit.greatest
  · have h := e.evaluateFrom_tokens words limit hstart [] []
    rw [List.append_nil, Nat.zero_add] at h
    rw [if_neg (by omega), h]
    split <;> rfl
  · rw [if_pos (by omega), if_neg (by omega)]
    rfl

end Evaluation

namespace Engine

end Engine

end Concordance
