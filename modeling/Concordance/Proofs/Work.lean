import Concordance.CommandLine.SearchCli
import Concordance.Proofs.Except

/-!
# What commands do to the state of a CLI

Work starts from the storage and the cached index, and what comes of it and what it leaves of
them does not depend on what has been reported or printed before. Work that only
reports, prints and reads leaves both as they are.
-/
namespace Concordance

/-- The storage and the cached index of a CLI, which are worked on. -/
structure CliState where
  storage : IndexStorage
  index : Option Index

def SearchCli.state (d : SearchCli) : CliState := ⟨d.storage, d.index⟩

namespace Work

variable {α β : Type} {w : Work α} {f : α → Work β} {b b' b'' : CliState}

theorem runAt_bind (w : Work α) (f : α → Work β) (d : SearchCli) :
    runAt (w >>= f) d = match runAt w d with
      | (.ok a, d') => runAt (f a) d'
      | (.error e, d') => (.error e, d') := by
  show (match w d with | (x, d') => (ExceptT.bindCont f x) d') = _
  show _ = match w d with | (.ok a, d') => _ | (.error e, d') => _
  cases w d with
  | mk x d' => cases x <;> rfl

/-- Work comes to an end with a result, or with a failure, and leaves a state behind. -/
def Does (w : Work α) (b : CliState) (r : Except Failure α) (b' : CliState) : Prop :=
  ∀ d : SearchCli, d.state = b → (runAt w d).1 = r ∧ (runAt w d).2.state = b'

theorem Does.bind {a : α} {r : Except Failure β} (h : Does w b (.ok a) b')
    (hf : Does (f a) b' r b'') : Does (w >>= f) b r b'' := by
  intro d hd
  obtain ⟨hresult, hleft⟩ := h d hd
  rw [runAt_bind]
  cases hrun : runAt w d with
  | mk x d' =>
    rw [hrun] at hresult hleft
    cases hresult
    exact hf d' hleft

theorem Does.bind_error {e : Failure} (h : Does w b (.error e) b') :
    Does (w >>= f) b (.error e) b' := by
  intro d hd
  obtain ⟨hresult, hleft⟩ := h d hd
  rw [runAt_bind]
  cases hrun : runAt w d with
  | mk x d' =>
    rw [hrun] at hresult hleft
    cases hresult
    exact ⟨rfl, hleft⟩

/-- What is done with the storage of the state. -/
theorem Does.get {f : IndexStorage → Work β} {r : Except Failure β}
    (h : Does (f b.storage) b r b') :
    Does (get >>= fun d => f d.storage) b r b' := by
  intro d hd
  rw [runAt_bind]
  subst hd
  exact h d rfl

/-- Work that leaves the storage and the index as they are, and comes to what the storage says. -/
def Reads (w : Work α) (r : IndexStorage → Except Failure α) : Prop :=
  ∀ b, Does w b (r b.storage) b

namespace Reads

variable {r : IndexStorage → Except Failure α} {q : α → IndexStorage → Except Failure β}

theorem bind (h : Reads w r) (hf : ∀ a, Reads (f a) (q a)) :
    Reads (w >>= f) fun s => r s >>= fun a => q a s := by
  intro b
  have hw := h b
  cases hresult : r b.storage with
  | ok a =>
    rw [hresult] at hw
    simpa only [hresult, ok_bind] using hw.bind (hf a b)
  | error e =>
    rw [hresult] at hw
    simpa only [hresult, error_bind] using hw.bind_error

/-- What comes of work that returns nothing does not matter to what follows. -/
theorem seq {w : Work Unit} {f : Unit → Work β} {q : IndexStorage → Except Failure β}
    (h : Reads w fun _ => .ok ()) (hf : Reads (f ()) q) : Reads (w >>= f) q :=
  fun b => (h b).bind (hf b)

end Reads

theorem reads_pure (a : α) : Reads (pure a) fun _ => .ok a := fun _ _ hd => ⟨rfl, hd⟩

theorem reads_throw (e : Failure) : Reads (throw e : Work α) fun _ => .error e :=
  fun _ _ hd => ⟨rfl, hd⟩

theorem reads_lift (x : Except Failure α) : Reads (liftM x) fun _ => x := by
  cases x with
  | ok a => exact reads_pure a
  | error e => exact reads_throw e

theorem reads_report (lines : List LogLine) : Reads (report lines) fun _ => .ok () :=
  fun _ _ hd => ⟨rfl, hd⟩

theorem reads_say (severity : Severity) (text : Text) : Reads (say severity text) fun _ => .ok () :=
  reads_report _

theorem reads_heading (text : String) : Reads (heading text) fun _ => .ok () :=
  (reads_say _ _).seq ((reads_say _ _).seq (reads_say _ _))

theorem reads_print (line : Text) : Reads (print line) fun _ => .ok () := fun _ _ hd => ⟨rfl, hd⟩

/-- Work that begins with a look at the storage. -/
theorem reads_get {f : SearchCli → Work β} {q : IndexStorage → Except Failure β}
    (hf : ∀ d, Does (f d) d.state (q d.storage) d.state) : Reads (get >>= f) q := by
  intro b d hd
  rw [runAt_bind]
  subst hd
  exact hf d d rfl

/-- Work on each of a list, of which nothing comes. -/
theorem reads_each {f : α → Work Unit} (hf : ∀ a, Reads (f a) fun _ => .ok ()) (l : List α) :
    Reads (l.forM f) fun _ => .ok () := by
  induction l with
  | nil => exact reads_pure ()
  | cons a rest ih => exact (hf a).seq ih

theorem reads_forM {f : α → Work PUnit} {q : α → IndexStorage → Except Failure PUnit}
    (hf : ∀ a, Reads (f a) (q a)) (l : List α) :
    Reads (l.forM f) fun s => l.forM fun a => q a s := by
  induction l with
  | nil => exact reads_pure PUnit.unit
  | cons a rest ih => exact (hf a).bind fun _ => ih

/-- What is read of the dataset of a configuration in a storage. -/
def datasetIn (c : Configuration) (s : IndexStorage) : Except Failure ByteArray := do
  let path ← c.dataset
  if ← s.contains path then return (← s.read path).toBytes else throw (.noDatasetAt path.toText)

theorem reads_readDataset (c : Configuration) : Reads (readDataset c) (datasetIn c) := by
  refine (reads_lift c.dataset).bind fun path => reads_get fun d => ?_
  have hread (there : Bool) : Reads
      (if there then (do return (← liftM (d.storage.read path)).toBytes : Work ByteArray)
        else throw (.noDatasetAt path.toText))
      fun _ => if there then (do return (← d.storage.read path).toBytes)
        else throw (.noDatasetAt path.toText) := by
    cases there with
    | true => exact (reads_lift _).bind fun content => reads_pure _
    | false => exact reads_throw _
  exact (reads_lift (d.storage.contains path)).bind hread d.state

theorem reads_loadDataset (c : Configuration) :
    Reads (loadDataset c) fun s => datasetIn c s >>= fun bytes =>
      let loaded := Dataset.loadBytes Configuration.datasetOptions bytes
      loaded.failure.elim (.ok loaded.documents) .error := by
  refine (reads_readDataset c).bind fun bytes => (reads_report _).seq ?_
  simp only
  cases (Dataset.loadBytes Configuration.datasetOptions bytes).failure with
  | none => exact reads_pure _
  | some e => exact (reads_throw e).bind fun _ => reads_pure _

end Work

end Concordance
