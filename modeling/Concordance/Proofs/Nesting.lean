import Concordance.Proofs.Evaluation
import Concordance.Proofs.Expressions
import Mathlib.Data.List.Infix

/-!
# Parentheses that do not match

A closing parenthesis without a group ends a query, and the end of a query closes the
groups that are open. So a query has the value of the balanced one that is read off its
parentheses, and how deep it nests is how far its opening parentheses are ahead of the
closing ones.
-/
namespace Concordance

namespace Symbol

theorem ofToken_closing : ofToken [.char ')'] = .closing := rfl

/-- A token that is no parenthesis is a connective or a word. -/
theorem ofToken_cases {token : Text} (hopening : token ≠ [.char '('])
    (hclosing : token ≠ [.char ')']) :
    (∃ op, ofToken token = .connective op) ∨ ofToken token = .word token := by
  rw [ofToken, if_neg hopening, if_neg hclosing]
  cases Operator.ofToken? token with
  | some op => exact .inl ⟨op, rfl⟩
  | none => exact .inr rfl

end Symbol

/-- By how many the opening parentheses among some tokens are ahead of the closing ones. -/
def excess (tokens : List Text) : Int := (tokens.count [.char '('] : Int) - tokens.count [.char ')']

/-- The tokens before the first closing parenthesis for which there is no group, where `n` groups
are open before them. -/
def beforeEnd (n : Nat) : List Text → List Text
  | [] => []
  | token :: rest =>
    if token = [.char '('] then token :: beforeEnd (n + 1) rest
    else if token = [.char ')'] then
      match n with
      | 0 => []
      | n + 1 => token :: beforeEnd n rest
    else token :: beforeEnd n rest

/-- The tokens that are read of a query, with the groups closed that they leave open. -/
def closed (n : Nat) (tokens : List Text) : List Text :=
  beforeEnd n tokens ++ List.replicate (n + excess (beforeEnd n tokens)).toNat [.char ')']

section Excess

variable (n : Nat) {token : Text} (rest : List Text)

@[simp] theorem excess_nil : excess [] = 0 := rfl

@[simp] theorem excess_opening : excess ([.char '('] :: rest) = excess rest + 1 := by
  rw [excess, excess, List.count_cons_self, List.count_cons_of_ne (by decide)]
  omega

@[simp] theorem excess_closing : excess ([.char ')'] :: rest) = excess rest - 1 := by
  rw [excess, excess, List.count_cons_self, List.count_cons_of_ne (by decide)]
  omega

theorem excess_other (hopening : token ≠ [.char '(']) (hclosing : token ≠ [.char ')']) :
    excess (token :: rest) = excess rest := by
  rw [excess, excess, List.count_cons_of_ne hopening, List.count_cons_of_ne hclosing]

@[simp] theorem beforeEnd_nil : beforeEnd n [] = [] := rfl

@[simp] theorem beforeEnd_opening :
    beforeEnd n ([.char '('] :: rest) = [.char '('] :: beforeEnd (n + 1) rest := rfl

@[simp] theorem beforeEnd_closing_zero : beforeEnd 0 ([.char ')'] :: rest) = [] := rfl

@[simp] theorem beforeEnd_closing_succ :
    beforeEnd (n + 1) ([.char ')'] :: rest) = [.char ')'] :: beforeEnd n rest := rfl

theorem beforeEnd_other (hopening : token ≠ [.char '(']) (hclosing : token ≠ [.char ')']) :
    beforeEnd n (token :: rest) = token :: beforeEnd n rest := by
  rw [beforeEnd.eq_def]
  simp only [if_neg hopening, if_neg hclosing]

@[simp] theorem closed_nil : closed n [] = List.replicate n [.char ')'] := by
  rw [closed, beforeEnd_nil, excess_nil, List.nil_append, Int.add_zero, Int.toNat_natCast]

@[simp] theorem closed_opening :
    closed n ([.char '('] :: rest) = [.char '('] :: closed (n + 1) rest := by
  have hopen : (n : Int) + (excess (beforeEnd (n + 1) rest) + 1) =
      (n + 1 : Nat) + excess (beforeEnd (n + 1) rest) := by omega
  rw [closed, closed, beforeEnd_opening, excess_opening, hopen, List.cons_append]

@[simp] theorem closed_closing_zero : closed 0 ([.char ')'] :: rest) = [] := rfl

@[simp] theorem closed_closing_succ :
    closed (n + 1) ([.char ')'] :: rest) = [.char ')'] :: closed n rest := by
  have hopen : ((n + 1 : Nat) : Int) + (excess (beforeEnd n rest) - 1) =
      n + excess (beforeEnd n rest) := by omega
  rw [closed, closed, beforeEnd_closing_succ, excess_closing, hopen, List.cons_append]

theorem closed_other (hopening : token ≠ [.char '(']) (hclosing : token ≠ [.char ')']) :
    closed n (token :: rest) = token :: closed n rest := by
  rw [closed, closed, beforeEnd_other n rest hopening hclosing,
    excess_other _ hopening hclosing, List.cons_append]

end Excess

/-- The prefixes of a list that is not empty: none of it, or its head and a prefix of its tail. -/
theorem exists_prefix_cons {P : List Text → Prop} (token : Text) (rest : List Text) :
    (∃ q, q <+: token :: rest ∧ P q) ↔ P [] ∨ ∃ q, q <+: rest ∧ P (token :: q) := by
  constructor
  · rintro ⟨q, hq, h⟩
    rcases List.prefix_cons_iff.mp hq with rfl | ⟨q, rfl, hrest⟩
    · exact .inl h
    · exact .inr ⟨q, hrest, h⟩
  · rintro (h | ⟨q, hq, h⟩)
    · exact ⟨[], List.nil_prefix, h⟩
    · exact ⟨token :: q, List.cons_prefix_cons.mpr ⟨rfl, hq⟩, h⟩

/-- The tokens before the end close nothing that is not open. -/
theorem nonneg_of_prefix_beforeEnd {n : Nat} {tokens q : List Text}
    (h : q <+: beforeEnd n tokens) : 0 ≤ n + excess q := by
  fun_induction beforeEnd n tokens generalizing q with
  | case1 n =>
    rw [List.prefix_nil.mp h, excess_nil]
    omega
  | case2 n rest ih =>
    rcases List.prefix_cons_iff.mp h with rfl | ⟨q, rfl, hq⟩
    · simp
    · have := ih hq
      rw [excess_opening]
      omega
  | case3 rest _ =>
    rw [List.prefix_nil.mp h, excess_nil]
    omega
  | case4 rest n _ ih =>
    rcases List.prefix_cons_iff.mp h with rfl | ⟨q, rfl, hq⟩
    · rw [excess_nil]
      omega
    · have := ih hq
      rw [excess_closing]
      omega
  | case5 n token rest hopening hclosing ih =>
    rcases List.prefix_cons_iff.mp h with rfl | ⟨q, rfl, hq⟩
    · simp
    · rw [excess_other q hopening hclosing]
      exact ih hq

/-- Only a closing parenthesis for which no group is left ends the tokens before a query does. -/
theorem beforeEnd_eq_or (n : Nat) (tokens : List Text) :
    beforeEnd n tokens = tokens ∨
      ∃ rest, tokens = beforeEnd n tokens ++ [.char ')'] :: rest ∧
        n + excess (beforeEnd n tokens) = 0 := by
  fun_induction beforeEnd n tokens with
  | case1 n => exact .inl rfl
  | case2 n rest ih =>
    rcases ih with hall | ⟨rest', hrest, hzero⟩
    · exact .inl (congrArg _ hall)
    · refine .inr ⟨rest', congrArg _ hrest, ?_⟩
      rw [excess_opening]
      omega
  | case3 rest _ => exact .inr ⟨rest, rfl, rfl⟩
  | case4 rest n _ ih =>
    rcases ih with hall | ⟨rest', hrest, hzero⟩
    · exact .inl (congrArg _ hall)
    · refine .inr ⟨rest', congrArg _ hrest, ?_⟩
      rw [excess_closing]
      omega
  | case5 n token rest hopening hclosing ih =>
    rw [excess_other _ hopening hclosing]
    rcases ih with hall | ⟨rest', hrest, hzero⟩
    · exact .inl (congrArg _ hall)
    · exact .inr ⟨rest', congrArg _ hrest, hzero⟩

theorem isPrefix_beforeEnd (n : Nat) (tokens : List Text) : beforeEnd n tokens <+: tokens := by
  rcases beforeEnd_eq_or n tokens with hall | ⟨rest, hrest, -⟩
  · rw [hall]
  · exact ⟨_, hrest.symm⟩

/-- What comes behind the end does not move it. -/
theorem beforeEnd_beforeEnd (n : Nat) (tokens : List Text) :
    beforeEnd n (beforeEnd n tokens) = beforeEnd n tokens := by
  fun_induction beforeEnd n tokens with
  | case1 => rfl
  | case2 n rest ih => rw [beforeEnd_opening, ih]
  | case3 => rfl
  | case4 rest n _ ih => rw [beforeEnd_closing_succ, ih]
  | case5 n token rest hopening hclosing ih => rw [beforeEnd_other _ _ hopening hclosing, ih]

section Evaluation

variable (lookup : Text → Except Failure DocSet) (limit : DepthLimit)

/-- A closing parenthesis for every level that is open does what the end of a query does. -/
theorem evaluateFrom_closings (depth : Nat) (outer : List Level) (level : Level) :
    evaluateFrom lookup limit depth outer level (List.replicate outer.length .closing) =
      .ok (closeAll outer level, []) := by
  induction outer generalizing depth level with
  | nil => rfl
  | cons up outer ih => exact ih (depth - 1) (up.push level.value)

/-- A query is evaluated, with levels open, as far as its end, with what it leaves open closed. -/
theorem evaluateFrom_closed (tokens : List Text) (depth : Nat) (outer : List Level)
    (level : Level) :
    (evaluateFrom lookup limit depth outer level (tokens.map Symbol.ofToken)).map Prod.fst =
      (evaluateFrom lookup limit depth outer level
        ((closed outer.length tokens).map Symbol.ofToken)).map Prod.fst := by
  induction tokens generalizing depth outer level with
  | nil =>
    rw [closed_nil, List.map_replicate, Symbol.ofToken_closing, evaluateFrom_closings]
    rfl
  | cons token rest ih =>
    by_cases hopening : token = [.char '(']
    · subst hopening
      rw [closed_opening, List.map_cons, List.map_cons]
      rw [show Symbol.ofToken [.char '('] = .opening from rfl, evaluateFrom, evaluateFrom]
      split
      · rfl
      · exact ih (depth + 1) (level :: outer) .start
    by_cases hclosing : token = [.char ')']
    · subst hclosing
      cases outer with
      | nil => rfl
      | cons up outer =>
        rw [List.length_cons, closed_closing_succ]
        exact ih (depth - 1) outer (up.push level.value)
    rw [closed_other _ _ hopening hclosing, List.map_cons, List.map_cons]
    rcases Symbol.ofToken_cases hopening hclosing with ⟨op, htoken⟩ | htoken
    · rw [htoken]
      exact ih depth outer _
    · rw [htoken, evaluateFrom, evaluateFrom]
      cases lookup token with
      | ok s => exact ih depth outer (level.push s)
      | error e => rfl

/-- A query of any parentheses has the outcome of the tokens before the first closing parenthesis
without a group, with a closing parenthesis for every group that these leave open. -/
theorem evaluate_closed (tokens : List Text) :
    evaluate lookup limit tokens =
      evaluate lookup limit (beforeEnd 0 tokens ++
        List.replicate (excess (beforeEnd 0 tokens)).toNat [.char ')']) := by
  have hclosed :
      beforeEnd 0 tokens ++ List.replicate (excess (beforeEnd 0 tokens)).toNat [.char ')'] =
      closed 0 tokens := by
    rw [closed, Int.natCast_zero, Int.zero_add]
  rw [hclosed, evaluate, evaluate, evaluateGroup, evaluateGroup]
  split
  · rfl
  · exact evaluateFrom_closed lookup limit tokens 0 [] .start

end Evaluation

section Depth

variable (words : Text → DocSet) (limit : DepthLimit)

/-- From a depth that is allowed, an evaluation fails where the groups that are open, with those
that are opened and not closed, are more than the limit. -/
theorem evaluateFrom_eq_tooDeep_iff {tokens : List Text} {outer : List Level} {level : Level}
    (h : (outer.length : Int) ≤ limit.greatest) :
    evaluateFrom (fun w => .ok (words w)) limit outer.length outer level
        (tokens.map Symbol.ofToken) = .error (.tooDeep limit.shown) ↔
      ∃ q, q <+: beforeEnd outer.length tokens ∧ limit.greatest < outer.length + excess q := by
  induction tokens generalizing outer level with
  | nil =>
    refine iff_of_false (by simp [evaluateFrom]) ?_
    rintro ⟨q, hq, hdeep⟩
    rw [List.prefix_nil.mp hq, excess_nil] at hdeep
    omega
  | cons token rest ih =>
    have hstart : ¬limit.greatest < outer.length + excess [] := by
      rw [excess_nil]
      omega
    by_cases hopening : token = [.char '(']
    · subst hopening
      simp only [beforeEnd_opening, exists_prefix_cons, hstart, false_or, excess_opening,
        List.map_cons, Symbol.ofToken_opening]
      rw [evaluateFrom]
      split
      · next hdeep =>
        refine iff_of_true rfl ⟨[], List.nil_prefix, ?_⟩
        rw [excess_nil]
        omega
      · next hdeep =>
        have hinner := @ih (level :: outer) .start (by rw [List.length_cons]; omega)
        rw [List.length_cons] at hinner
        rw [hinner]
        refine exists_congr fun q => and_congr_right fun _ => ?_
        omega
    by_cases hclosing : token = [.char ')']
    · subst hclosing
      cases outer with
      | nil =>
        refine iff_of_false (by simp [evaluateFrom, Symbol.ofToken_closing]) ?_
        rintro ⟨q, hq, hdeep⟩
        rw [List.prefix_nil.mp hq] at hdeep
        exact hstart hdeep
      | cons up outer =>
        rw [List.length_cons] at h hstart
        simp only [List.length_cons, beforeEnd_closing_succ, exists_prefix_cons, hstart, false_or,
          excess_closing, List.map_cons, Symbol.ofToken_closing]
        rw [evaluateFrom, Nat.add_sub_cancel, ih (by omega)]
        refine exists_congr fun q => and_congr_right fun _ => ?_
        omega
    simp only [beforeEnd_other _ _ hopening hclosing, exists_prefix_cons, hstart, false_or,
      excess_other _ hopening hclosing, List.map_cons]
    rcases Symbol.ofToken_cases hopening hclosing with ⟨op, htoken⟩ | htoken
    · rw [htoken]
      exact ih h
    · rw [htoken]
      exact ih h

/-- An evaluation over sets that can be looked up has a value or fails by its parentheses. -/
theorem evaluate_eq_ok_or (tokens : List Text) :
    (∃ docs, evaluate (fun w => .ok (words w)) limit tokens = .ok docs) ∨
      evaluate (fun w => .ok (words w)) limit tokens = .error (.tooDeep limit.shown) := by
  have halike := evaluate_alike compatible_true
    (f := fun w => .ok (words w)) (g := fun w => .ok (words w))
    (fun w => ⟨words w, words w, rfl, rfl, trivial⟩) limit tokens
  generalize evaluate (fun w => .ok (words w)) limit tokens = r at halike ⊢
  cases halike with
  | ok _ => exact .inl ⟨_, rfl⟩
  | error => exact .inr rfl

theorem tooDeep_iff (tokens : List Text) :
    evaluate (fun w => .ok (words w)) limit tokens = .error (.tooDeep limit.shown) ↔
      ∃ q, q <+: beforeEnd 0 tokens ∧ limit.greatest < excess q := by
  rw [evaluate, evaluateGroup]
  split
  · next hstart => exact iff_of_true rfl ⟨[], List.nil_prefix, hstart⟩
  · next hstart =>
    have hfrom := @evaluateFrom_eq_tooDeep_iff words limit tokens [] .start (by simpa using hstart)
    simp only [List.length_nil, Int.natCast_zero, Int.zero_add] at hfrom
    rw [← hfrom]
    cases evaluateFrom (fun w => .ok (words w)) limit 0 [] .start (tokens.map Symbol.ofToken) with
    | ok r => exact iff_of_false (by simp [Except.map]) (by simp)
    | error e => simp [Except.map]

/-- No query nests deeper than it has tokens. -/
theorem evaluate_ne_tooDeep_of_length {tokens : List Text}
    (h : (tokens.length : Int) ≤ limit.greatest) :
    evaluate (fun w => .ok (words w)) limit tokens ≠ .error (.tooDeep limit.shown) := by
  rw [ne_eq, tooDeep_iff]
  rintro ⟨q, hq, hlt⟩
  have hlength := (hq.trans (isPrefix_beforeEnd 0 tokens)).length_le
  have hcount : q.count [.char '('] ≤ q.length := List.count_le_length
  simp only [excess] at hlt
  omega

end Depth

end Concordance
