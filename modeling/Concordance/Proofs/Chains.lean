import Concordance.Query.Evaluation
import Mathlib.Data.List.Forall2

/-!
# Chains of operands

A level of parentheses stacks up its sets and applies the connective that waits as soon
as there is an operand for it. What it comes to is seen without the stack: the sets fall
into chains, in each of which connectives apply from left to right, and only the last
chain counts, or the last two where a connective still waits at the end.
-/
namespace Concordance

namespace Level

/-- What is done to a level: a set is added, or the connective that waits is replaced. -/
inductive Act where
  | push (s : DocSet)
  | await (pending : Option Operator)

/-- Two acts that differ at most in the sets that are added. -/
inductive Act.Like : Act → Act → Prop where
  | push (s t : DocSet) : Like (.push s) (.push t)
  | await (pending : Option Operator) : Like (.await pending) (.await pending)

def act (level : Level) : Act → Level
  | .push s => level.push s
  | .await pending => { level with pending }

/-- A level to which everything in a history was done. Histories list the last act first. -/
def after (history : List Act) : Level := history.foldr (fun a level => level.act a) .start

/-- Sets with a connective between each of them and the next one. -/
structure Chain where
  first : DocSet
  more : List (Operator × DocSet)

namespace Chain

/-- The connectives of a chain apply from left to right. -/
def value (chain : Chain) : DocSet :=
  chain.more.foldl (fun s link => link.1.apply s link.2) chain.first

def extend (chain : Chain) (op : Operator) (s : DocSet) : Chain :=
  { chain with more := chain.more ++ [(op, s)] }

theorem value_extend (chain : Chain) (op : Operator) (s : DocSet) :
    (chain.extend op s).value = op.apply chain.value s := by
  rw [value, extend, List.foldl_append]
  rfl

end Chain

/-- The sets that a history adds. -/
def added (history : List Act) : List DocSet :=
  history.filterMap fun
    | .push s => some s
    | .await _ => none

/-- The connective that waits behind a history is the last one that was put there. No connective
outlasts a set that is added, but for the first set, which leaves it to the second one. -/
def waiting : List Act → Option Operator
  | [] => none
  | .await pending :: _ => pending
  | .push _ :: earlier => if added earlier = [] then waiting earlier else none

/-- The sets that a history adds, in chains, the last chain first. A set extends the last chain by
the connective that waits, and begins another chain if none does or if it is the first set. -/
def chains : List Act → List Chain
  | [] => []
  | .await _ :: earlier => chains earlier
  | .push s :: earlier =>
    match waiting earlier, chains earlier with
    | some op, last :: rest => last.extend op s :: rest
    | _, rest => ⟨s, []⟩ :: rest

/-- The value of the last chain, or what a connective that waits makes of the last two. -/
def outcome (pending : Option Operator) : List Chain → DocSet
  | [] => .empty
  | [last] => last.value
  | last :: second :: _ =>
    match pending with
    | none => last.value
    | some op => op.apply second.value last.value

section Cut

variable (s : DocSet) (earlier : List Act)

/-- A set that is added begins a chain, or it extends the last one by the connective that waits. -/
theorem chains_push_cases :
    (waiting earlier = none ∨ chains earlier = []) ∧
        chains (.push s :: earlier) = ⟨s, []⟩ :: chains earlier ∨
      ∃ op last rest, waiting earlier = some op ∧ chains earlier = last :: rest ∧
        chains (.push s :: earlier) = last.extend op s :: rest := by
  rw [chains]
  cases waiting earlier with
  | none => exact .inl ⟨.inl rfl, rfl⟩
  | some op =>
    cases chains earlier with
    | nil => exact .inl ⟨.inr rfl, rfl⟩
    | cons last rest => exact .inr ⟨op, last, rest, rfl, rfl, rfl⟩

theorem chains_push_ne_nil : chains (.push s :: earlier) ≠ [] := by
  rcases chains_push_cases s earlier with ⟨-, hchains⟩ | ⟨op, last, rest, -, -, hchains⟩ <;>
    rw [hchains] <;> exact List.cons_ne_nil _ _

theorem chains_push_eq_nil_iff (t : DocSet) (earlier' : List Act) :
    chains (.push s :: earlier) = [] ↔ chains (.push t :: earlier') = [] :=
  iff_of_false (chains_push_ne_nil s earlier) (chains_push_ne_nil t earlier')

/-- There are chains as soon as a set is added. -/
theorem chains_eq_nil_iff (history : List Act) : chains history = [] ↔ added history = [] := by
  induction history with
  | nil => exact iff_of_true rfl rfl
  | cons a earlier ih =>
    cases a with
    | push s => exact iff_of_false (chains_push_ne_nil s earlier) (List.cons_ne_nil _ _)
    | await pending => exact ih

theorem waiting_push :
    waiting (.push s :: earlier) = if chains earlier = [] then waiting earlier else none := by
  rw [waiting]
  simp only [chains_eq_nil_iff]

end Cut

/-- The stack of a level holds the values of its chains, and the connective waits that was put there
last and not used. -/
theorem after_eq (history : List Act) :
    after history = ⟨(chains history).map Chain.value, waiting history⟩ := by
  induction history with
  | nil => rfl
  | cons a earlier ih =>
    have hafter : after (a :: earlier) = (after earlier).act a := rfl
    rw [hafter, ih]
    cases a with
    | await pending => rfl
    | push s =>
      rw [act, push, waiting_push]
      rcases chains_push_cases s earlier with ⟨hnone | hnil, hchains⟩ |
        ⟨op, last, rest, hwaiting, hlast, hchains⟩
      · rw [hchains, hnone, ite_self]
        rfl
      · rw [hchains, hnil, if_pos rfl]
        cases waiting earlier <;> rfl
      · rw [hchains, hwaiting, hlast, if_neg (List.cons_ne_nil _ _), List.map_cons, List.map_cons,
          Chain.value_extend]
        rfl

/-- A level that ends comes to the value of its last chain, or of its last two. -/
theorem top_reduce_eq_outcome (history : List Act) :
    (after history).reduce.top = outcome (waiting history) (chains history) := by
  rw [after_eq]
  rcases chains history with - | ⟨last, - | ⟨second, rest⟩⟩ <;> cases waiting history <;> rfl

section Like

/-- Two histories leave the same connective waiting, and the same chains but for the first ones, of
which the one history has `count`. -/
structure SameChains (count : Nat) (history history' : List Act) : Prop where
  waiting_eq : waiting history = waiting history'
  nil_iff : chains history = [] ↔ chains history' = []
  exists_eq : ∃ begun old old', chains history = begun ++ old ∧ chains history' = begun ++ old' ∧
    old.length = count

variable {history history' earlier earlier' : List Act}

theorem waiting_push_congr (hwaiting : waiting history = waiting history')
    (hnil : chains history = [] ↔ chains history' = []) (s t : DocSet) :
    waiting (.push s :: history) = waiting (.push t :: history') := by
  rw [waiting_push, waiting_push, hwaiting]
  simp only [hnil]

/-- The sets that are added do not decide which connective waits and whether there are chains. -/
theorem sameChains_of_like (h : List.Forall₂ Act.Like earlier earlier') :
    SameChains (chains earlier).length earlier earlier' := by
  suffices waiting earlier = waiting earlier' ∧ (chains earlier = [] ↔ chains earlier' = []) from
    ⟨this.1, this.2, [], _, _, rfl, rfl, rfl⟩
  induction h with
  | nil => exact ⟨rfl, Iff.rfl⟩
  | @cons a a' earlier earlier' hact _ ih =>
    obtain ⟨hwaiting, hnil⟩ := ih
    cases hact with
    | await pending => exact ⟨rfl, hnil⟩
    | push s t =>
      exact ⟨waiting_push_congr hwaiting hnil s t, chains_push_eq_nil_iff s earlier t earlier'⟩

/-- A set that is added goes into a chain that both histories have, or it begins one in both, or it
extends the last of the chains that need not be the same. -/
theorem SameChains.push {count : Nat} (h : SameChains count history history') (s : DocSet) :
    SameChains count (.push s :: history) (.push s :: history') := by
  obtain ⟨hwaiting, hnil, begun, old, old', hchains, hchains', hcount⟩ := h
  refine ⟨waiting_push_congr hwaiting hnil s s, chains_push_eq_nil_iff s history s history', ?_⟩
  rw [hchains, hchains'] at hnil
  rw [chains, chains, hchains, hchains', hwaiting]
  cases waiting history' with
  | none => exact ⟨⟨s, []⟩ :: begun, old, old', rfl, rfl, hcount⟩
  | some op =>
    cases begun with
    | cons last rest => exact ⟨last.extend op s :: rest, old, old', rfl, rfl, hcount⟩
    | nil =>
      -- The set goes into a chain that may differ, and that is there in both or in neither.
      cases old with
      | nil =>
        have hold' : old' = [] := hnil.mp rfl
        subst hold'
        exact ⟨[⟨s, []⟩], [], [], rfl, rfl, hcount⟩
      | cons last rest =>
        cases old' with
        | nil => exact absurd (hnil.mpr rfl) (List.cons_ne_nil _ _)
        | cons last' rest' =>
          exact ⟨[], last.extend op s :: rest, last'.extend op s :: rest', rfl, rfl, hcount⟩

theorem SameChains.append {count : Nat} (h : SameChains count earlier earlier')
    (recent : List Act) : SameChains count (recent ++ earlier) (recent ++ earlier') := by
  induction recent with
  | nil => exact h
  | cons a recent ih =>
    cases a with
    | push s => exact ih.push s
    | await pending => exact ⟨rfl, ih.nil_iff, ih.exists_eq⟩

/-- Where the last two chains are the same, so is what the level comes to. -/
theorem SameChains.outcome_eq {count : Nat} (h : SameChains count history history')
    (hcount : count + 2 ≤ (chains history).length) :
    outcome (waiting history') (chains history') = outcome (waiting history) (chains history) := by
  obtain ⟨hwaiting, -, begun, old, old', hchains, hchains', hold⟩ := h
  rw [hchains, List.length_append] at hcount
  rw [hwaiting, hchains, hchains']
  rcases begun with - | ⟨last, - | ⟨second, rest⟩⟩
  · rw [List.length_nil] at hcount
    omega
  · rw [List.length_singleton] at hcount
    omega
  · rfl

end Like

/-- Whatever sets were added and whatever connectives were put to wait, in any order: a level that
ends comes to the value of its last chain, or, where a connective still waits, to what that makes of
the last two. It is empty if no set was added. Other sets in chains before the last two, which begin
in the part of the history that stays as it is, make no difference. -/
theorem top_reduce_after (history : List Act) :
    (after history).reduce.top = outcome (waiting history) (chains history) ∧
      (added history = [] → (after history).reduce.top = .empty) ∧
      ∀ recent earlier earlier', history = recent ++ earlier →
        List.Forall₂ Act.Like earlier earlier' →
        (chains earlier).length + 2 ≤ (chains history).length →
          (after (recent ++ earlier')).reduce.top = (after history).reduce.top := by
  refine ⟨top_reduce_eq_outcome history, fun hadded => ?_, ?_⟩
  · rw [top_reduce_eq_outcome, (chains_eq_nil_iff history).mpr hadded]
    rfl
  · rintro recent earlier earlier' rfl hlike hcount
    rw [top_reduce_eq_outcome, top_reduce_eq_outcome]
    exact ((sameChains_of_like hlike).append recent).outcome_eq hcount

/-- The theorem at three chains with a connective that waits at the end. What stands in the first
chain does not matter. -/
theorem top_reduce_after_three_chains :
    let recent : List Act := [.await (some .and), .push (.ofList [2, 3]), .push (.ofList [1]),
      .await (some .not), .await (some .or), .push (.ofList [1, 2])]
    let earlier : List Act := [.push (.ofList [9]), .await none]
    let earlier' : List Act := [.push (.ofList [2, 3]), .await none]
    (after (recent ++ earlier)).reduce.top = .ofList [2] ∧
      (after (recent ++ earlier')).reduce.top = .ofList [2] := by
  intro recent earlier earlier'
  have hlike : List.Forall₂ Act.Like earlier earlier' :=
    .cons (.push _ _) (.cons (.await none) .nil)
  have hcount : (chains earlier).length + 2 ≤ (chains (recent ++ earlier)).length := by
    decide +kernel
  obtain ⟨houtcome, -, hothers⟩ := top_reduce_after (recent ++ earlier)
  have hvalue : (after (recent ++ earlier)).reduce.top = .ofList [2] :=
    houtcome.trans (by decide +kernel)
  exact ⟨hvalue, (hothers recent earlier earlier' rfl hlike hcount).trans hvalue⟩

end Level

end Concordance
