import Concordance.Proofs.Groups

/-!
# A group may be replaced by its value

A group of balanced tokens hands one set on to the level around it. So a word that is
looked up to the same set can stand in its place, whatever comes before and behind:
groups that are open there, connectives that wait and sets that are stacked up see the
set alone. Only the limit of depth tells the two apart, as a group may nest too deeply.
-/
namespace Concordance

variable {lookup : Text → Except Failure DocSet} {limit : DepthLimit}

/-- Symbols can stand in the place of others where these end a query: wherever the others are read
to a value, they are read to the same one. -/
def Replaces (lookup : Text → Except Failure DocSet) (limit : DepthLimit)
    (inserted replaced : List Symbol) : Prop :=
  ∀ (depth : Nat) (outer : List Level) (level : Level) (docs : DocSet),
    (evaluateFrom lookup limit depth outer level replaced).map Prod.fst = .ok docs →
      (evaluateFrom lookup limit depth outer level inserted).map Prod.fst = .ok docs

/-- What comes before is read alike, as it is read without looking ahead. -/
theorem Replaces.append_left {inserted replaced : List Symbol}
    (h : Replaces lookup limit inserted replaced) (before : List Symbol) :
    Replaces lookup limit (before ++ inserted) (before ++ replaced) := by
  induction before with
  | nil => exact h
  | cons symbol before ih =>
    intro depth outer level docs hdocs
    cases symbol with
    | opening =>
      rw [List.cons_append, evaluateFrom] at hdocs ⊢
      split at hdocs
      · cases hdocs
      · next hdeep =>
        rw [if_neg hdeep]
        exact ih (depth + 1) (level :: outer) .start docs hdocs
    | closing =>
      cases outer with
      | nil => exact hdocs
      | cons up outer => exact ih (depth - 1) outer (up.push level.value) docs hdocs
    | connective op => exact ih depth outer _ docs hdocs
    | word w =>
      rw [List.cons_append, evaluateFrom] at hdocs ⊢
      cases hw : lookup w with
      | error e =>
        rw [hw] at hdocs
        cases hdocs
      | ok s =>
        rw [hw] at hdocs
        exact ih depth outer (level.push s) docs hdocs

/-- What can be evaluated at some depth can be evaluated outside of all groups. -/
theorem evaluateGroup_of_deeper {symbols : List Symbol} {depth : Nat} {r : DocSet × List Symbol}
    (hdepth : depth ≤ limit.greatest)
    (h : evaluateFrom lookup limit depth [] .start symbols = .ok r) :
    evaluateGroup lookup limit 0 symbols = .ok r := by
  induction depth with
  | zero => rwa [evaluateGroup, if_neg (Int.not_lt.mpr hdepth)]
  | succ depth ih =>
    refine ih (by omega) ?_
    exact @evaluateFrom_higher lookup limit symbols depth [] .start r h

/-- A word can stand in the place of a group that has its set for a value. -/
theorem replaces_group {group : List Symbol} (hgroup : levelsAfter 0 group = some 0)
    {r : DocSet × List Symbol} (hvalue : evaluateGroup lookup limit 0 group = .ok r) {w : Text}
    (hword : lookup w = .ok r.1) (after : List Symbol) :
    Replaces lookup limit (.word w :: after) (.opening :: (group ++ .closing :: after)) := by
  intro depth outer level docs hdocs
  rw [evaluateFrom] at hdocs
  split at hdocs
  · cases hdocs
  next hdeep =>
  rw [evaluateFrom_balanced _ _ hgroup] at hdocs
  obtain ⟨result, hresult, rfl⟩ := map_eq_ok_iff.mp hdocs
  obtain ⟨inner, hinner, hresult⟩ := bind_eq_ok_iff.mp hresult
  -- Inside the group it was read at a greater depth, which changes what it fails at only.
  have hsame : inner = r := by
    rw [evaluateGroup_of_deeper (Int.not_lt.mp hdeep) hinner] at hvalue
    exact Except.ok.inj hvalue
  rw [hsame] at hresult
  rw [evaluateFrom, hword]
  exact map_eq_ok_iff.mpr ⟨result, hresult, rfl⟩

/-- A word that is looked up to the value of a group of balanced tokens can stand in its place in
every query that has a value, and the query keeps that value. -/
theorem evaluate_replace_group {postings : Text → Except Failure DocSet} {stem : Text → Text}
    {before group after : List Text} {w : SearchWord} {s docs : DocSet}
    (hgroup : levelsAfter 0 (group.map Symbol.ofToken) = some 0)
    (hvalue : evaluate (fun w => postings (stem w)) limit group = .ok s)
    (hword : postings (stem w.text) = .ok s)
    (hdocs : evaluate (fun w => postings (stem w)) limit
      (before ++ [.char '('] :: (group ++ [.char ')'] :: after)) = .ok docs) :
    evaluate (fun w => postings (stem w)) limit (before ++ w.text :: after) = .ok docs := by
  obtain ⟨r, hr, rfl⟩ := map_eq_ok_iff.mp hvalue
  have hreplaces := (replaces_group hgroup hr hword (after.map Symbol.ofToken)).append_left
    (before.map Symbol.ofToken)
  rw [evaluate, evaluateGroup] at hdocs ⊢
  split at hdocs
  · cases hdocs
  next hstart =>
  rw [List.map_append, List.map_cons, List.map_append, List.map_cons] at hdocs
  rw [if_neg hstart, List.map_append, List.map_cons, Symbol.ofToken_word]
  exact hreplaces 0 [] .start docs hdocs

/-- The theorem at a group with words side by side, a connective that leads, one that is replaced
and an empty group, in an open group in which a set and a connective wait. -/
theorem evaluate_replace_group_waiting :
    let postings (t : Text) : Except Failure DocSet :=
      if t = "cat".toText then .ok (.ofList [1, 2, 3])
      else if t = "dog".toText then .ok (.ofList [2, 3])
      else if t = "pup".toText then .ok (.ofList [3]) else .ok .empty
    let pup : SearchWord :=
      ⟨"pup".toText, by decide, by decide, fun op => by cases op <;> decide⟩
    let group := ["or".toText, "bird".toText, "dog".toText, "AND".toText, "not".toText, [.char '('],
      [.char ')'], "cat".toText, "and".toText, "pup".toText]
    let before := ["dog".toText, [.char '('], "bird".toText, "cat".toText, "NOT".toText]
    let after := ["or".toText]
    evaluate (fun w => postings (id w)) ⟨3, ['3']⟩ group = .ok (.ofList [3]) ∧
      evaluate (fun w => postings (id w)) ⟨3, ['3']⟩
        (before ++ [.char '('] :: (group ++ [.char ')'] :: after)) = .ok (.ofList [1, 2]) ∧
      evaluate (fun w => postings (id w)) ⟨3, ['3']⟩ (before ++ pup.text :: after) =
        .ok (.ofList [1, 2]) := by
  intro postings pup group before after
  have hgroup : levelsAfter 0 (group.map Symbol.ofToken) = some 0 := by decide +kernel
  have hvalue : evaluate (fun w => postings (id w)) ⟨3, ['3']⟩ group = .ok (.ofList [3]) := by
    decide +kernel
  have hword : postings (id pup.text) = .ok (.ofList [3]) := by decide +kernel
  have hdocs : evaluate (fun w => postings (id w)) ⟨3, ['3']⟩
      (before ++ [.char '('] :: (group ++ [.char ')'] :: after)) = .ok (.ofList [1, 2]) := by
    decide +kernel
  exact ⟨hvalue, hdocs, evaluate_replace_group hgroup hvalue hword hdocs⟩

end Concordance
