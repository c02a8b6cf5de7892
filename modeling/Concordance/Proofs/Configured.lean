import Concordance.Proofs.FreshCli
import Concordance.Proofs.MadeAgain
import Concordance.Proofs.RoundTrip

/-!
# Commands after the folder of all indexes has been made

What comes of a command depends on the storage and the cached index, and not on what
has been reported or printed there. Every command makes the folder of all indexes first. So
commands do not tell two storages apart that are the same once this folder has been made.
-/
namespace Concordance

namespace Work

variable {α β : Type} {w : Work α} {f : α → Work β} {around : Surroundings}

/-- Work of which what comes and what it leaves depends on the state alone. -/
def Determined (w : Work α) : Prop := ∀ b, ∃ r b', Does w b r b'

theorem Determined.bind (h : Determined w) (hf : ∀ a, Determined (f a)) :
    Determined (w >>= f) := by
  intro b
  obtain ⟨r, b', hw⟩ := h b
  cases r with
  | ok a =>
    obtain ⟨r', b'', hfa⟩ := hf a b'
    exact ⟨r', b'', hw.bind hfa⟩
  | error e => exact ⟨.error e, b', hw.bind_error⟩

theorem Reads.determined {r : IndexStorage → Except Failure α} (h : Reads w r) : Determined w :=
  fun b => ⟨_, b, h b⟩

theorem determined_get {f : IndexStorage → Work β} (hf : ∀ s, Determined (f s)) :
    Determined (get >>= fun d => f d.storage) := by
  intro b
  obtain ⟨r, b', h⟩ := hf b.storage b
  exact ⟨r, b', h.get⟩

theorem determined_settle (o : Outcome Index) : Determined (settle o) :=
  fun _ => ⟨_, _, does_settle o⟩

/-- No index is made where no kind of index is chosen. -/
theorem does_theIndex_of_no_section [Language] {b : CliState} {c : Configuration} (h :
    b.index = none)
    (hc : c.backend? = none) : Does (theIndex c) b (.error .noSection) b := by
  rintro d rfl
  have hget : runAt get d = (.ok d, d) := rfl
  have hnone : d.index = none := h
  rw [theIndex, runAt_bind, hget]
  simp only [hnone, hc]
  exact ⟨rfl, rfl⟩

/-- The kind of index that is chosen is one of those that there are. -/
theorem exists_backend {c : Configuration} {backend : Text}
    (h : c.backend? = some backend) : ∃ p : Backend, c.backend? = some p.name := by
  rw [Configuration.backend?, Option.map_eq_some_iff] at h
  obtain ⟨p, hp, -⟩ := h
  exact ⟨p, by rw [Configuration.backend?, hp]; rfl⟩

theorem determined_theIndex [Language] (c : Configuration) : Determined (theIndex c) := by
  intro b
  cases hindex : b.index with
  | some x => exact ⟨_, b, does_theIndex_of_some hindex⟩
  | none =>
    cases hbackend : c.backend? with
    | some backend =>
      obtain ⟨p, hp⟩ := exists_backend hbackend
      exact ⟨_, _, does_theIndex_of_none hindex hp⟩
    | none => exact ⟨_, b, does_theIndex_of_no_section hindex hbackend⟩

theorem determined_load [Language] (c : Configuration) (name : Json) : Determined (load c name) :=
  (determined_theIndex c).bind fun x => (reads_lift name.text).determined.bind fun t =>
    determined_get fun s => determined_settle (x.load s (x.home.child t))

theorem determined_creating (around : Surroundings) (name : Json) (shown : Text)
    (documents : List Document) (x : Index) (s : IndexStorage) :
    Determined (creating around name shown documents x s) :=
  fun b => ⟨_, _, does_creating around name shown documents x s b⟩

theorem determined_deleting (target : Text) (x : Index) (s : IndexStorage) :
    Determined (deleting target x s) :=
  (determined_settle _).bind fun _ => ((reads_say _ _).seq (reads_pure Json.null)).determined

theorem determined_demonstrating [Language] (around : Surroundings) (c : Configuration) (x : Index)
    (s : IndexStorage) : Determined (demonstrating around c x s) :=
  (determined_settle _).bind fun x =>
    (reads_forM (reads_showQuery _ x) demoQueries).determined.bind fun _ =>
      determined_get (f := clearingAway x) fun _ =>
        (determined_settle _).bind fun _ => (reads_pure _).determined

/-- Every command chooses its configuration first, and what it goes on with is determined. -/
theorem exists_configured [Language] (around : Surroundings) (command : Command) :
    ∃ backend dataset f, perform around command = configure around backend dataset >>= f ∧
      ∀ c, Determined (f c) := by
  cases command with
  | createIndex dataset name sample backend =>
    refine ⟨backend, dataset, _, createIndex_eq, fun c => ?_⟩
    obtain ⟨r, hdocuments⟩ := reads_documentsFor c sample
    refine (reads_heading _).determined.bind fun _ => (reads_lift _).determined.bind fun shown => ?_
    refine (reads_say _ _).determined.bind fun _ => hdocuments.determined.bind fun documents => ?_
    refine (reads_say _ _).determined.bind fun _ => (determined_theIndex c).bind fun x => ?_
    exact determined_get (f := creating around _ shown documents x)
      fun s => determined_creating around _ shown documents x s
  | search query name limit backend =>
    exact ⟨backend, .null, _, search_eq, fun c => (determined_load c name).bind fun x =>
      (reads_answering c query limit x).determined⟩
  | showDocument doc name backend =>
    exact ⟨backend, .null, _, showDocument_eq, fun c => (determined_load c name).bind fun x =>
      (reads_showing doc name x).determined⟩
  | demo =>
    exact ⟨.null, .null, _, demo_eq, fun c => (determined_theIndex c).bind fun x =>
      determined_get (f := demonstrating around c x) fun s => determined_demonstrating around c x s⟩
  | listIndices backend =>
    refine ⟨backend, .null, _, listIndices_eq, fun c => (determined_theIndex c).bind fun x => ?_⟩
    exact determined_get (f := fun s => liftM (x.stored s) >>= listing)
      fun s => ((reads_lift _).bind reads_listing).determined
  | deleteIndex name backend =>
    refine ⟨backend, .null, _, deleteIndex_eq, fun c => (reads_lift _).determined.bind fun _ => ?_⟩
    refine (reads_say _ _).determined.bind fun _ => ?_
    refine (determined_theIndex c).bind fun x => (reads_lift name.text).determined.bind fun t => ?_
    exact determined_get (f := deleting t x) fun s => determined_deleting t x s
  | showConfig backend =>
    exact ⟨backend, .null, _, rfl, fun c => ((reads_print _).seq (reads_pure Json.null)).determined⟩

/-- An index is loaded, to be read. -/
def opening [Language] (around : Surroundings) (backend name : Json) : Work Index := do
  let c ← configure around backend .null
  load c name

end Work

open Work (Does Determined runAt perform configure opening)

/-- The cached index of two states is one, and once a folder has been made, so is the storage. -/
structure MadeAlike (folder : Path) (b b' : CliState) : Prop where
  storage : b'.storage.makeFolders folder = b.storage.makeFolders folder
  index : b'.index = b.index

namespace MadeAlike

variable {α : Type} {folder : Path} {d d' : SearchCli}

/-- Work after the folder of all indexes has been made comes to the same in both states. -/
theorem configured (h : MadeAlike folder d.state d'.state) {around : Surroundings}
    (hfolder : .ofText around.folder = folder) (backend dataset : Json)
    {f : Configuration → Work α} (hf : ∀ c, Determined (f c)) :
    (runAt (configure around backend dataset >>= f) d').1 =
        (runAt (configure around backend dataset >>= f) d).1 ∧
      MadeAlike folder (runAt (configure around backend dataset >>= f) d).2.state
        (runAt (configure around backend dataset >>= f) d').2.state := by
  obtain ⟨hstorage, hindex⟩ := h
  cases hchoose : Configuration.choose around backend dataset with
  | error e =>
    obtain ⟨hresult, hafter⟩ := (Work.does_configure_error hchoose).bind_error (f := f) d rfl
    obtain ⟨hresult', hafter'⟩ := (Work.does_configure_error hchoose).bind_error (f := f) d' rfl
    rw [hresult, hresult', hafter, hafter']
    exact ⟨rfl, hstorage, hindex⟩
  | ok c =>
    have hc : c.folder = folder := (Configuration.folder_of_choose hchoose).trans hfolder
    have left := Work.does_configure (b := d.state) hchoose
    have right := Work.does_configure (b := d'.state) hchoose
    rw [hc] at left right
    rw [hstorage, hindex] at right
    -- From here on the states are the same.
    have hboth {r : Except Failure α} {b : CliState}
        (hleft : Does (configure around backend dataset >>= f) d.state r b)
        (hright : Does (configure around backend dataset >>= f) d'.state r b) :
        (runAt (configure around backend dataset >>= f) d').1 =
            (runAt (configure around backend dataset >>= f) d).1 ∧
          MadeAlike folder (runAt (configure around backend dataset >>= f) d).2.state
            (runAt (configure around backend dataset >>= f) d').2.state := by
      obtain ⟨hresult, hafter⟩ := hleft d rfl
      obtain ⟨hresult', hafter'⟩ := hright d' rfl
      rw [hresult, hresult', hafter, hafter']
      exact ⟨rfl, rfl, rfl⟩
    cases hmade : (d.state.storage.makeFolders folder).2 with
    | some e =>
      rw [hmade] at left right
      exact hboth left.bind_error right.bind_error
    | none =>
      rw [hmade] at left right
      obtain ⟨r, b, hrest⟩ := hf c ⟨(d.state.storage.makeFolders folder).1, d.state.index⟩
      exact hboth (left.bind hrest) (right.bind hrest)

theorem perform [Language] (h : MadeAlike folder d.state d'.state) {around : Surroundings}
    (hfolder : .ofText around.folder = folder) (command : Command) :
    (runAt (perform around command) d').1 = (runAt (perform around command) d).1 ∧
      MadeAlike folder (runAt (perform around command) d).2.state
        (runAt (perform around command) d').2.state := by
  obtain ⟨backend, dataset, f, heq, hf⟩ := Work.exists_configured around command
  rw [heq]
  exact h.configured hfolder backend dataset hf

/-- CLIs over such storages stay alike through any commands that work in the folder. -/
theorem after [Language] (h : MadeAlike folder d.state d'.state) {commands : List
    (Surroundings × Command)}
    (hcommands : ∀ e ∈ commands, .ofText e.1.folder = folder) :
    MadeAlike folder (d.after commands).state (d'.after commands).state := by
  induction commands generalizing d d' with
  | nil => exact h
  | cons e rest ih =>
    obtain ⟨hfolder, hrest⟩ := List.forall_mem_cons.mp hcommands
    exact ih (h.perform hfolder e.2).2 hrest

end MadeAlike

end Concordance
