import Concordance.Proofs.Work

/-!
# Work of two CLIs

The same work is done by two CLIs over one storage, whose cached indexes may hold different
things. It is in lockstep if it comes to results that belong together, or fails in the same
way, and leaves the CLIs over one storage again. What each CLI keeps by itself is a
parameter.
-/
namespace Concordance

/-- Two states have one storage, and each is kept as it should be. -/
structure Paired (P : CliState → Prop) (b b' : CliState) : Prop where
  storage : b.storage = b'.storage
  left : P b
  right : P b'

namespace Work

variable {α α' β β' : Type} {P : CliState → Prop} {b b' c c' : CliState}
  {w : Work α} {w' : Work α'} {f : α → Work β} {f' : α' → Work β'}
  {Q : α → α' → CliState → CliState → Prop} {R : β → β' → CliState → CliState → Prop}

/-- Work that ends alike in two states: with results of which `Q` holds, or with one failure. -/
inductive Lockstep (P : CliState → Prop) (Q : α → α' → CliState → CliState → Prop) (w : Work α)
    (w' : Work α') (b b' : CliState) : Prop
  | ok {a : α} {a' : α'} {c c' : CliState} (left : Does w b (.ok a) c) (right : Does w' b'
      (.ok a') c')
    (after : Q a a' c c')
  | error {e : Failure} {c c' : CliState} (left : Does w b (.error e) c)
    (right : Does w' b' (.error e) c') (after : Paired P c c')

/-- Results that are equal, in states that are kept as they should be. -/
def Equally (P : CliState → Prop) (a a' : α) (c c' : CliState) : Prop := a = a' ∧ Paired P c c'

namespace Lockstep

theorem bind (h : Lockstep P Q w w' b b')
    (hf : ∀ a a' c c', Q a a' c c' → Lockstep P R (f a) (f' a') c c') :
    Lockstep P R (w >>= f) (w' >>= f') b b' := by
  cases h with
  | ok left right hafter =>
    cases hf _ _ _ _ hafter with
    | ok left' right' hafter' => exact .ok (left.bind left') (right.bind right') hafter'
    | error left' right' hafter' => exact .error (left.bind left') (right.bind right') hafter'
  | error left right hafter => exact .error left.bind_error right.bind_error hafter

theorem weaken {Q' : α → α' → CliState → CliState → Prop} (h : Lockstep P Q w w' b b')
    (hQ : ∀ a a' c c', Q a a' c c' → Q' a a' c c') : Lockstep P Q' w w' b b' := by
  cases h with
  | ok left right hafter => exact .ok left right (hQ _ _ _ _ hafter)
  | error left right hafter => exact .error left right hafter

/-- Work that reads finds the same in both states. -/
theorem of_reads {r : IndexStorage → Except Failure α} {w : Work α} (hw : Reads w r)
    (h : Paired P b b') : Lockstep P (Equally P) w w b b' := by
  have left := hw b
  have right := hw b'
  rw [← h.storage] at right
  cases hr : r b.storage with
  | ok a =>
    rw [hr] at left right
    exact .ok left right ⟨rfl, h⟩
  | error e =>
    rw [hr] at left right
    exact .error left right h

/-- Work that reads is followed by work from the same states. -/
theorem after_reads {r : IndexStorage → Except Failure α} {w : Work α} {f f' : α → Work β}
    {R : β → β → CliState → CliState → Prop} (hw : Reads w r) (h : Paired P b b')
    (hf : ∀ a, r b.storage = .ok a → Lockstep P R (f a) (f' a) b b') :
    Lockstep P R (w >>= f) (w >>= f') b b' := by
  have left := hw b
  have right := hw b'
  rw [← h.storage] at right
  cases hr : r b.storage with
  | ok a =>
    rw [hr] at left right
    have hsteps : Lockstep P (fun x x' c c' => x = a ∧ x' = a ∧ c = b ∧ c' = b') w w b b' :=
      .ok left right ⟨rfl, rfl, rfl, rfl⟩
    refine hsteps.bind ?_
    rintro _ _ _ _ ⟨rfl, rfl, rfl, rfl⟩
    exact hf _ hr
  | error e =>
    rw [hr] at left right
    exact .error left.bind_error right.bind_error h

/-- What is done with the storage of each state. -/
theorem get {f g : IndexStorage → Work β} {R : β → β → CliState → CliState → Prop}
    (h : Lockstep P R (f b.storage) (g b'.storage) b b') :
    Lockstep P R (get >>= fun d => f d.storage) (get >>= fun d => g d.storage) b b' := by
  cases h with
  | ok left right hafter => exact .ok left.get right.get hafter
  | error left right hafter => exact .error left.get right.get hafter

/-- Work in lockstep comes to the same in both states, which are kept as they should be. -/
theorem result {w w' : Work α} (h : Lockstep P (Equally P) w w' b b') {d d' : SearchCli}
    (hd : d.state = b) (hd' : d'.state = b') :
    (runAt w d).1 = (runAt w' d').1 ∧ Paired P (runAt w d).2.state (runAt w' d').2.state := by
  cases h with
  | ok left right hafter =>
    obtain ⟨rfl, hpair⟩ := hafter
    obtain ⟨hresult, hstate⟩ := left d hd
    obtain ⟨hresult', hstate'⟩ := right d' hd'
    exact ⟨hresult.trans hresult'.symm, hstate ▸ hstate' ▸ hpair⟩
  | error left right hafter =>
    obtain ⟨hresult, hstate⟩ := left d hd
    obtain ⟨hresult', hstate'⟩ := right d' hd'
    exact ⟨hresult.trans hresult'.symm, hstate ▸ hstate' ▸ hafter⟩

end Lockstep

end Work

end Concordance
