import Concordance.Query.Evaluation
import Mathlib.Data.List.Forall2

/-!
# Evaluation over related sets

The evaluator takes its steps by the tokens alone and treats sets in one way. So a
relation between sets that the connectives of a query keep is kept by its evaluation,
and whether parentheses nest too deeply does not depend on the sets.
-/
namespace Concordance

/-- A connective keeps a relation between sets. -/
def Operator.Keeps (op : Operator) (R : DocSet → DocSet → Prop) : Prop :=
  ∀ ⦃s t s' t' : DocSet⦄, R s t → R s' t' → R (op.apply s s') (op.apply t t')

/-- A relation between sets that holds of empty sets and is kept by the connectives. -/
structure Compatible (R : DocSet → DocSet → Prop) : Prop where
  empty : R .empty .empty
  apply : ∀ (op : Operator) {s t s' t' : DocSet},
    R s t → R s' t' → R (op.apply s s') (op.apply t t')

theorem Compatible.keeps {R : DocSet → DocSet → Prop} (hR : Compatible R) (op : Operator) :
    op.Keeps R := fun _ _ _ _ hleft hright => hR.apply op hleft hright

/-- Two attempts give related results, or both fail in the one way that is named. -/
inductive Alike {α β : Type} (R : α → β → Prop) (e : Failure) :
    Except Failure α → Except Failure β → Prop where
  | ok {a : α} {b : β} (h : R a b) : Alike R e (.ok a) (.ok b)
  | error : Alike R e (.error e) (.error e)

/-- A document belongs to a set exactly when another one belongs to the other set. -/
theorem compatible_mem (d e : Int) : Compatible fun s t => d ∈ s ↔ e ∈ t where
  empty := by simp
  apply op s t s' t' h h' := by
    cases op with
    | and => rw [Operator.apply, Operator.apply, DocSet.mem_inter, DocSet.mem_inter, h, h']
    | or => rw [Operator.apply, Operator.apply, DocSet.mem_union, DocSet.mem_union, h, h']
    | not => rw [Operator.apply, Operator.apply, DocSet.mem_diff, DocSet.mem_diff, h, h']

theorem compatible_not_mem (d : Int) : Compatible fun s _ => d ∉ s where
  empty := DocSet.not_mem_empty d
  apply op s t s' t' h h' := by
    cases op with
    | and => simp [Operator.apply, h]
    | or => simp [Operator.apply, h, h']
    | not => simp [Operator.apply, h]

theorem compatible_true : Compatible fun _ _ => True where
  empty := trivial
  apply _ _ _ _ _ _ _ := trivial

namespace Level

variable {R : DocSet → DocSet → Prop}

/-- Two levels wait for the same connective and have related sets. -/
structure Related (R : DocSet → DocSet → Prop) (l m : Level) : Prop where
  pending : l.pending = m.pending
  sets : List.Forall₂ R l.sets m.sets

/-- Two levels are related, and the connective that they wait for keeps the relation. -/
structure Tied (R : DocSet → DocSet → Prop) (l m : Level) : Prop extends Related R l m where
  keeps : ∀ op, l.pending = some op → op.Keeps R

theorem tied_start : Tied R .start .start := ⟨⟨rfl, .nil⟩, nofun⟩

variable {l m : Level}

/-- Only the connective that waits is applied, and none waits behind it. -/
theorem Tied.reduce (h : Tied R l m) : Tied R l.reduce m.reduce := by
  obtain ⟨sets, pending⟩ := l
  obtain ⟨sets', pending'⟩ := m
  obtain ⟨⟨hpending, hsets⟩, hkeeps⟩ := h
  simp only at hpending hsets hkeeps
  subst hpending
  cases pending with
  | none => exact ⟨⟨rfl, hsets⟩, nofun⟩
  | some op =>
    cases hsets with
    | nil => exact ⟨⟨rfl, .nil⟩, hkeeps⟩
    | cons hright hrest =>
      cases hrest with
      | nil => exact ⟨⟨rfl, .cons hright .nil⟩, hkeeps⟩
      | cons hleft hrest => exact ⟨⟨rfl, .cons (hkeeps op rfl hleft hright) hrest⟩, nofun⟩

theorem Tied.push (h : Tied R l m) {s t : DocSet} (hst : R s t) : Tied R (l.push s) (m.push t) :=
  Tied.reduce ⟨⟨h.pending, .cons hst h.sets⟩, h.keeps⟩

theorem Tied.value (hempty : R .empty .empty) (h : Tied R l m) : R l.value m.value := by
  have hsets := h.reduce.sets
  rw [Level.value, Level.value, top, top]
  generalize l.reduce.sets = sets at hsets ⊢
  generalize m.reduce.sets = sets' at hsets ⊢
  cases hsets with
  | nil => exact hempty
  | cons hst _ => exact hst

end Level

variable {R : DocSet → DocSet → Prop} {f g : Text → Except Failure DocSet}

theorem closeAll_tied (hempty : R .empty .empty) {outer outer' : List Level} {l m : Level}
    (houter : List.Forall₂ (Level.Tied R) outer outer') (h : Level.Tied R l m) :
    R (closeAll outer l) (closeAll outer' m) := by
  rw [closeAll, closeAll]
  have hvalue := h.value hempty
  generalize l.value = s at hvalue ⊢
  generalize m.value = t at hvalue ⊢
  induction houter generalizing s t with
  | nil => exact hvalue
  | cons hup _ ih => exact ih _ _ ((hup.push hvalue).value hempty)

/-- An evaluation keeps a relation that the connectives among its symbols keep. It fails for one of
two lookups exactly when it does for the other, by parentheses that nest too deeply. Of other words
and connectives nothing has to be known. -/
theorem evaluateFrom_alike (hempty : R .empty .empty) (limit : DepthLimit) {symbols : List Symbol}
    (hkeeps : ∀ op, .connective op ∈ symbols → op.Keeps R)
    (hlookup : ∀ w, .word w ∈ symbols → ∃ s t, f w = .ok s ∧ g w = .ok t ∧ R s t)
    (depth : Nat) {outer outer' : List Level} {l m : Level}
    (houter : List.Forall₂ (Level.Tied R) outer outer') (h : Level.Tied R l m) :
    Alike (fun r r' => R r.1 r'.1) (.tooDeep limit.shown)
      (evaluateFrom f limit depth outer l symbols)
      (evaluateFrom g limit depth outer' m symbols) := by
  induction symbols generalizing depth outer outer' l m with
  | nil => exact .ok (closeAll_tied hempty houter h)
  | cons symbol rest ih =>
    -- A connective that waits was checked when it was read, so what is asked is asked of the rest.
    have hrest (depth : Nat) {outer outer' : List Level} {l m : Level} :=
      @ih (fun op hop => hkeeps op (.tail _ hop)) (fun w hw => hlookup w (.tail _ hw))
        depth outer outer' l m
    cases symbol with
    | opening =>
      rw [evaluateFrom, evaluateFrom]
      split
      · exact .error
      · exact hrest _ (.cons h houter) Level.tied_start
    | closing =>
      cases houter with
      | nil => exact .ok (h.value hempty)
      | cons hup houter => exact hrest _ houter (hup.push (h.value hempty))
    | connective op =>
      refine hrest _ houter ⟨⟨rfl, h.sets⟩, fun op' hop => ?_⟩
      cases hop
      exact hkeeps op (.head _)
    | word w =>
      obtain ⟨s, t, hs, ht, hst⟩ := hlookup w (.head _)
      rw [evaluateFrom, evaluateFrom, hs, ht]
      exact hrest _ houter (h.push hst)

theorem Alike.fst {e : Failure} {x y : Except Failure (DocSet × List Symbol)}
    (h : Alike (fun r r' => R r.1 r'.1) e x y) : Alike R e (x.map Prod.fst) (y.map Prod.fst) := by
  cases h with
  | ok h => exact .ok h
  | error => exact .error

theorem evaluate_alike (hR : Compatible R)
    (hlookup : ∀ w, ∃ s t, f w = .ok s ∧ g w = .ok t ∧ R s t)
    (limit : DepthLimit) (tokens : List Text) :
    Alike R (.tooDeep limit.shown) (evaluate f limit tokens) (evaluate g limit tokens) := by
  rw [evaluate, evaluate, evaluateGroup, evaluateGroup]
  split
  · exact .error
  · exact .fst (evaluateFrom_alike hR.empty limit (fun op _ => hR.keeps op)
      (fun w _ => hlookup w) 0 .nil Level.tied_start)

end Concordance
