import Concordance.Proofs.Nesting
import Mathlib.Order.Bounds.Basic

/-!
# How far a group reaches

A group that begins at some place of a query is read up to the parenthesis that closes it, or
up to the end of the query. The groups in it are read in the same way, each from behind its
opening parenthesis, and the reading goes on behind each of them.
-/
namespace Concordance

/-- The tokens of the group that begins with the first of some tokens, and the closing parenthesis
behind it. -/
def groupTokens (tokens : List Text) : List Text := tokens.take ((beforeEnd 0 tokens).length + 1)

/-- The places up to which the tokens from `p` on close one group more than they open. -/
def groupEnds (tokens : List Text) (p : Nat) : Set Nat :=
  {q | ∃ read, read <+: tokens.drop p ∧ read.count [.char ')'] = read.count [.char '('] + 1 ∧
    q = p + read.length}

section Tokens

variable {tokens read : List Text} {n p q : Nat}

/-- Tokens that close nothing that is not open are read on, whatever is behind them. -/
theorem beforeEnd_append (h : beforeEnd n read = read) (behind : List Text) :
    beforeEnd n (read ++ behind) = read ++ beforeEnd (n + excess read).toNat behind := by
  induction read generalizing n with
  | nil => rw [List.nil_append, excess_nil, Int.add_zero, Int.toNat_natCast, List.nil_append]
  | cons token rest ih =>
    by_cases hopening : token = [.char '(']
    · subst hopening
      rw [beforeEnd_opening] at h
      have hopen : ((n + 1 : Nat) : Int) + excess rest = n + (excess rest + 1) := by omega
      rw [List.cons_append, beforeEnd_opening, ih (List.cons.inj h).2, excess_opening, hopen,
        List.cons_append]
    by_cases hclosing : token = [.char ')']
    · subst hclosing
      cases n with
      | zero => cases h
      | succ n =>
        rw [beforeEnd_closing_succ] at h
        have hopen : (n : Int) + excess rest = (n + 1 : Nat) + (excess rest - 1) := by omega
        rw [List.cons_append, beforeEnd_closing_succ, ih (List.cons.inj h).2, excess_closing, hopen,
          List.cons_append]
    rw [beforeEnd_other _ _ hopening hclosing] at h
    rw [List.cons_append, beforeEnd_other _ _ hopening hclosing, ih (List.cons.inj h).2,
      excess_other _ hopening hclosing, List.cons_append]

/-- A group goes on to the end of the query, or it has a closing parenthesis. -/
theorem groupTokens_eq_or (tokens : List Text) :
    (beforeEnd 0 tokens = tokens ∧ groupTokens tokens = tokens) ∨
      (excess (beforeEnd 0 tokens) = 0 ∧
        groupTokens tokens = beforeEnd 0 tokens ++ [[.char ')']]) := by
  rcases beforeEnd_eq_or 0 tokens with hall | ⟨rest, hrest, hzero⟩
  · refine .inl ⟨hall, ?_⟩
    rw [groupTokens, hall]
    exact List.take_of_length_le (Nat.le_succ _)
  · refine .inr ⟨by simpa using hzero, ?_⟩
    have htake := congrArg (List.take ((beforeEnd 0 tokens).length + 1)) hrest
    rwa [List.take_length_add_append] at htake

theorem isPrefix_groupTokens (tokens : List Text) : groupTokens tokens <+: tokens :=
  List.take_prefix _ _

theorem excess_eq_neg_one_iff :
    excess read = -1 ↔ read.count [.char ')'] = read.count [.char '('] + 1 := by
  rw [excess]
  omega

theorem excess_append (first second : List Text) :
    excess (first ++ second) = excess first + excess second := by
  rw [excess, excess, excess, List.count_append, List.count_append]
  omega

/-- No tokens before the end of a group close one more than they open. -/
theorem excess_ne_of_prefix (h : read <+: beforeEnd 0 tokens) : excess read ≠ -1 := by
  have hnonneg := nonneg_of_prefix_beforeEnd h
  omega

theorem groupEnds_eq_empty (h : beforeEnd 0 (tokens.drop p) = tokens.drop p) :
    groupEnds tokens p = ∅ := by
  refine Set.eq_empty_of_forall_notMem ?_
  rintro q ⟨read, hread, hcount, -⟩
  rw [← h] at hread
  exact excess_ne_of_prefix hread (excess_eq_neg_one_iff.mpr hcount)

/-- A group ends at the first place up to which one group more is closed than opened. -/
theorem groupEnds_isLeast_or (tokens : List Text) (p : Nat) :
    IsLeast (groupEnds tokens p) (p + (groupTokens (tokens.drop p)).length) ∨
      groupEnds tokens p = ∅ ∧ groupTokens (tokens.drop p) = tokens.drop p := by
  rcases groupTokens_eq_or (tokens.drop p) with ⟨hall, hgroup⟩ | ⟨hzero, hgroup⟩
  · exact .inr ⟨groupEnds_eq_empty hall, hgroup⟩
  · refine .inl ⟨⟨_, isPrefix_groupTokens _, ?_, rfl⟩, ?_⟩
    · rw [← excess_eq_neg_one_iff, hgroup, excess_append, hzero]
      rfl
    · rintro q ⟨read, hread, hcount, rfl⟩
      -- A shorter beginning is one of the tokens before the end.
      by_contra hshorter
      have hlength : read.length ≤ (beforeEnd 0 (tokens.drop p)).length := by
        have hgroupLength := congrArg List.length hgroup
        rw [List.length_append, List.length_singleton] at hgroupLength
        omega
      have hprefix := List.prefix_of_prefix_length_le hread (isPrefix_beforeEnd 0 _) hlength
      exact excess_ne_of_prefix hprefix (excess_eq_neg_one_iff.mpr hcount)

theorem eq_nil_of_open {behind : List Text} (hall : beforeEnd 0 (tokens.drop p) = tokens.drop p)
    (h : behind = [] ∨ (groupEnds tokens p).Nonempty) : behind = [] := by
  rcases h with hnil | hclosed
  · exact hnil
  · rw [groupEnds_eq_empty hall] at hclosed
    exact absurd hclosed Set.not_nonempty_empty

/-- The tokens of a group end alike wherever they stand, if the group is closed or nothing is behind
it. -/
theorem beforeEnd_groupTokens {behind : List Text}
    (h : behind = [] ∨ (groupEnds tokens p).Nonempty) :
    beforeEnd 0 (groupTokens (tokens.drop p) ++ behind) = beforeEnd 0 (tokens.drop p) := by
  rcases groupTokens_eq_or (tokens.drop p) with ⟨hall, hgroup⟩ | ⟨hzero, hgroup⟩
  · rw [eq_nil_of_open hall h, hgroup, List.append_nil]
  · rw [hgroup, List.append_assoc, beforeEnd_append (beforeEnd_beforeEnd 0 _), hzero]
    exact List.append_nil _

theorem groupTokens_groupTokens {behind : List Text}
    (h : behind = [] ∨ (groupEnds tokens p).Nonempty) :
    groupTokens (groupTokens (tokens.drop p) ++ behind) = groupTokens (tokens.drop p) := by
  rw [groupTokens, beforeEnd_groupTokens h]
  rcases groupTokens_eq_or (tokens.drop p) with ⟨hall, hgroup⟩ | ⟨-, hgroup⟩
  · rw [eq_nil_of_open hall h, hgroup, List.append_nil]
    exact hgroup
  · rw [hgroup]
    exact List.take_left' (List.length_append)

end Tokens

section Evaluation

variable (lookup : Text → Except Failure DocSet) (limit : DepthLimit)

/-- A level inside others is read to its end, and the one around it goes on behind. -/
theorem evaluateFrom_levels (symbols : List Symbol) (base : Nat) (inner : List Level)
    (level up : Level) (outer : List Level) :
    evaluateFrom lookup limit (base + inner.length) (inner ++ up :: outer) level symbols =
      (evaluateFrom lookup limit (base + inner.length) inner level symbols >>= fun r =>
        evaluateFrom lookup limit (base - 1) outer (up.push r.1) r.2) := by
  induction symbols generalizing inner level with
  | nil =>
    show Except.ok (closeAll (inner ++ up :: outer) level, []) = _
    rw [closeAll, List.foldl_append]
    rfl
  | cons symbol symbols ih =>
    cases symbol with
    | opening =>
      rw [evaluateFrom, evaluateFrom]
      split
      · rfl
      · exact ih (level :: inner) .start
    | closing =>
      cases inner with
      | nil => rfl
      | cons up' inner => exact ih inner (up'.push level.value)
    | connective op => exact ih inner _
    | word w =>
      rw [evaluateFrom, evaluateFrom]
      cases lookup w with
      | ok s => exact ih inner (level.push s)
      | error e => rfl

variable {lookup : Text → Except Failure DocSet} {limit : DepthLimit}

/-- What is left of the tokens is what stands behind the end of the outermost level. -/
theorem evaluateFrom_rest {tokens : List Text} {depth : Nat} {outer : List Level} {level : Level}
    {r : DocSet × List Symbol}
    (h : evaluateFrom lookup limit depth outer level (tokens.map Symbol.ofToken) = .ok r) :
    r.2 = (tokens.drop ((beforeEnd outer.length tokens).length + 1)).map Symbol.ofToken := by
  induction tokens generalizing depth outer level with
  | nil =>
    cases h
    rfl
  | cons token rest ih =>
    by_cases hopening : token = [.char '(']
    · subst hopening
      rw [List.map_cons, Symbol.ofToken_opening, evaluateFrom] at h
      split at h
      · cases h
      · exact ih h
    by_cases hclosing : token = [.char ')']
    · subst hclosing
      cases outer with
      | nil =>
        cases h
        rfl
      | cons up outer => exact ih h
    rw [beforeEnd_other _ _ hopening hclosing]
    rw [List.map_cons] at h
    rcases Symbol.ofToken_cases hopening hclosing with ⟨op, htoken⟩ | htoken
    · rw [htoken] at h
      exact ih h
    · rw [htoken, evaluateFrom] at h
      cases hw : lookup token with
      | ok s =>
        rw [hw] at h
        exact ih h
      | error e =>
        rw [hw] at h
        cases h

/-- A group is evaluated by the tokens before its end. -/
theorem evaluateGroup_congr {tokens tokens' : List Text} (depth : Nat)
    (h : beforeEnd 0 tokens = beforeEnd 0 tokens') :
    (evaluateGroup lookup limit depth (tokens.map Symbol.ofToken)).map Prod.fst =
      (evaluateGroup lookup limit depth (tokens'.map Symbol.ofToken)).map Prod.fst := by
  have hclosed : closed 0 tokens = closed 0 tokens' := by rw [closed, closed, h]
  rw [evaluateGroup, evaluateGroup]
  split
  · rfl
  · rw [evaluateFrom_closed lookup limit tokens, evaluateFrom_closed lookup limit tokens',
      List.length_nil, hclosed]

/-- Evaluates a level of parentheses from a place of a query on. Gives its value, and the place
behind its end. -/
def levelAt (lookup : Text → Except Failure DocSet) (limit : DepthLimit) (tokens : List Text)
    (p depth : Nat) (level : Level) : Except Failure (DocSet × Nat) :=
  (evaluateFrom lookup limit depth [] level ((tokens.drop p).map Symbol.ofToken)).map fun r =>
    (r.1, tokens.length - r.2.length)

/-- Evaluates the group that begins at a place of a query. -/
def evaluateAt (lookup : Text → Except Failure DocSet) (limit : DepthLimit) (tokens : List Text)
    (p depth : Nat) : Except Failure (DocSet × Nat) :=
  (evaluateGroup lookup limit depth ((tokens.drop p).map Symbol.ofToken)).map fun r =>
    (r.1, tokens.length - r.2.length)

theorem evaluate_eq_evaluateAt (tokens : List Text) :
    evaluate lookup limit tokens = (evaluateAt lookup limit tokens 0 0).map Prod.fst := by
  rw [evaluate, evaluateAt, List.drop_zero]
  cases evaluateGroup lookup limit 0 (tokens.map Symbol.ofToken) <;> rfl

theorem evaluateAt_eq_levelAt (tokens : List Text) (p depth : Nat) :
    evaluateAt lookup limit tokens p depth =
      if limit.greatest < depth then .error (.tooDeep limit.shown)
      else levelAt lookup limit tokens p depth .start := by
  rw [evaluateAt, evaluateGroup, levelAt]
  split <;> rfl

theorem levelAt_end {tokens : List Text} {p : Nat} (hp : p = tokens.length) (depth : Nat)
    (level : Level) : levelAt lookup limit tokens p depth level = .ok (level.value, p) := by
  subst hp
  rw [levelAt, List.drop_length]
  rfl

theorem drop_length_sub (tokens : List Text) (n : Nat) :
    tokens.drop (tokens.length - (tokens.drop n).length) = tokens.drop n := by
  rw [List.length_drop]
  rcases Nat.le_total n tokens.length with hn | hn
  · rw [Nat.sub_sub_self hn]
  · rw [List.drop_eq_nil_of_le hn, List.drop_eq_nil_of_le (by omega)]

/-- A level is read token by token. A group in it is evaluated one level deeper from behind its
opening parenthesis, which gives the place where the level goes on. -/
theorem levelAt_eq {tokens : List Text} {p : Nat} (hp : p < tokens.length) (depth : Nat)
    (level : Level) :
    levelAt lookup limit tokens p depth level =
      match Symbol.ofToken tokens[p] with
      | .opening => evaluateAt lookup limit tokens (p + 1) (depth + 1) >>= fun r =>
          levelAt lookup limit tokens r.2 depth (level.push r.1)
      | .closing => .ok (level.value, p + 1)
      | .connective op =>
          levelAt lookup limit tokens (p + 1) depth { level with pending := some op }
      | .word w => lookup w >>= fun s =>
          levelAt lookup limit tokens (p + 1) depth (level.push s) := by
  rw [levelAt, List.drop_eq_getElem_cons hp, List.map_cons]
  cases Symbol.ofToken tokens[p] with
  | opening =>
    show (evaluateFrom _ _ _ _ _ (.opening :: _)).map _ = evaluateAt _ _ _ _ _ >>= _
    rw [evaluateFrom, evaluateAt_eq_levelAt]
    split
    · rfl
    · have hlevels := evaluateFrom_levels lookup limit ((tokens.drop (p + 1)).map Symbol.ofToken)
        (depth + 1) [] .start level []
      rw [List.length_nil, Nat.add_zero, List.nil_append] at hlevels
      rw [hlevels, levelAt]
      cases hinner : evaluateFrom lookup limit (depth + 1) [] .start
          ((tokens.drop (p + 1)).map Symbol.ofToken) with
      | error e => rfl
      | ok r =>
        have hrest := evaluateFrom_rest hinner
        rw [List.drop_drop] at hrest
        have hplace : (tokens.drop (tokens.length - r.2.length)).map Symbol.ofToken = r.2 := by
          rw [hrest, List.length_map, drop_length_sub]
        show (evaluateFrom _ _ _ _ _ r.2).map _ =
          (evaluateFrom _ _ _ _ _ ((tokens.drop (tokens.length - r.2.length)).map _)).map _
        rw [hplace]
        rfl
  | closing =>
    show Except.ok (level.value, tokens.length - ((tokens.drop (p + 1)).map _).length) = _
    rw [List.length_map, List.length_drop, Nat.sub_sub_self hp]
  | connective op => rfl
  | word w =>
    show (evaluateFrom _ _ _ _ _ (.word w :: _)).map _ = lookup w >>= _
    rw [evaluateFrom]
    cases lookup w <;> rfl

/-- The place behind the end of a group is behind its tokens. -/
theorem evaluateAt_eq {tokens : List Text} {p : Nat} (hp : p ≤ tokens.length) (depth : Nat) :
    evaluateAt lookup limit tokens p depth =
      ((evaluateGroup lookup limit depth ((tokens.drop p).map Symbol.ofToken)).map
        Prod.fst).map fun docs => (docs, p + (groupTokens (tokens.drop p)).length) := by
  rw [evaluateAt, evaluateGroup]
  split
  · rfl
  · cases hfrom : evaluateFrom lookup limit depth [] .start
        ((tokens.drop p).map Symbol.ofToken) with
    | error e => rfl
    | ok r =>
      have hrest := congrArg List.length (evaluateFrom_rest hfrom)
      have hgroup : (groupTokens (tokens.drop p)).length =
          min ((beforeEnd 0 (tokens.drop p)).length + 1) (tokens.drop p).length :=
        List.length_take
      have hlength : (tokens.drop p).length = tokens.length - p := List.length_drop
      have hplace : tokens.length - r.2.length = p + (groupTokens (tokens.drop p)).length := by
        rw [List.length_map, List.length_drop, List.length_nil] at hrest
        omega
      show Except.ok (r.1, _) = Except.ok (r.1, _)
      rw [hplace]

/-- An evaluation that returns has read its group and nothing else: up to the first place where one
group more is closed than opened, or else to the end of the query. It returns the same for these
tokens wherever they stand, if nothing is behind them where they do not close their group. -/
theorem evaluateAt_extent {tokens : List Text} {p depth q : Nat} {docs : DocSet}
    (hp : p ≤ tokens.length) (h : evaluateAt lookup limit tokens p depth = .ok (docs, q)) :
    (p ≤ q ∧ q ≤ tokens.length) ∧
      (IsLeast (groupEnds tokens p) q ∨ groupEnds tokens p = ∅ ∧ q = tokens.length) ∧
      ∀ before behind, (behind = [] ∨ (groupEnds tokens p).Nonempty) →
        evaluateAt lookup limit (before ++ ((tokens.drop p).take (q - p) ++ behind))
          before.length depth = .ok (docs, before.length + (q - p)) := by
  rw [evaluateAt_eq hp] at h
  obtain ⟨docs', hdocs, hreturned⟩ := map_eq_ok_iff.mp h
  cases hreturned
  have hplace : p + (groupTokens (tokens.drop p)).length - p =
      (groupTokens (tokens.drop p)).length := Nat.add_sub_cancel_left _ _
  have hle := (isPrefix_groupTokens (tokens.drop p)).length_le
  rw [List.length_drop] at hle
  refine ⟨by omega, ?_, fun before behind hbehind => ?_⟩
  · rcases groupEnds_isLeast_or tokens p with hleast | ⟨hnone, hall⟩
    · exact .inl hleast
    · refine .inr ⟨hnone, ?_⟩
      rw [hall, List.length_drop]
      omega
  · rw [hplace, ← List.prefix_iff_eq_take.mp (isPrefix_groupTokens (tokens.drop p))]
    rw [evaluateAt_eq (by simp), List.drop_left, groupTokens_groupTokens hbehind,
      evaluateGroup_congr depth (beforeEnd_groupTokens hbehind), hdocs]
    rfl

/-- The theorem at a group with another one in it, in the middle of a query. -/
theorem evaluateAt_extent_nested :
    let lookup : Text → Except Failure DocSet := fun w =>
      .ok (.ofList (if w = [.char 'b'] then [2, 3] else [1, 2]))
    let tokens : List Text := [['x'], [.char '('], ['a'], [.char '('], ['b'], [.char ')'],
      [.char ')'], ['y'], [.char ')']]
    evaluateAt lookup (.whole 3) tokens 2 1 = .ok (.ofList [2, 3], 7) ∧
      IsLeast (groupEnds tokens 2) 7 ∧
      evaluateAt lookup (.whole 3)
          [['a'], [.char '('], ['b'], [.char ')'], [.char ')'], [.char '(']] 0 1 =
        .ok (.ofList [2, 3], 5) := by
  intro lookup tokens
  have h : evaluateAt lookup (.whole 3) tokens 2 1 = .ok (.ofList [2, 3], 7) := by decide +kernel
  obtain ⟨-, hends, hanywhere⟩ := evaluateAt_extent (by decide) h
  have hleast : IsLeast (groupEnds tokens 2) 7 := by
    rcases hends with hleast | ⟨-, hlength⟩
    · exact hleast
    · exact absurd hlength (by decide)
  exact ⟨h, hleast, hanywhere [] [[.char '(']] (.inr hleast.nonempty)⟩

end Evaluation

end Concordance
