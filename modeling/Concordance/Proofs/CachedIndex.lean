import Concordance.Proofs.MadeFolders
import Concordance.Proofs.Work

/-!
# The cached index

Every command chooses its configuration, makes the folder of all indexes, and works on the
cached index, which is made if there is none. These steps are told here by what they do
to the storage and to the index.
-/
namespace Concordance

namespace Backend

/-- The name of the folder in which indexes of a kind are kept. -/
def homeName : Backend → Text
  | memory => "selfindex".toText
  | database => "rocksdb".toText

def home (p : Backend) (folder : Path) : Path := folder.child p.homeName

/-- How commands analyse texts. -/
def analyzer [l : Language] : Analyzer := ⟨true, defaultPunctuation, .porter l, []⟩

/-- The format in which commands save an index in memory. -/
def savedFormat : Json := .str Configuration.format

/-- The index that commands make, which holds nothing. -/
def newIndex [Language] (p : Backend) (folder : Path) : Index :=
  match p with
  | memory => .memory (.new analyzer (home memory folder) (.value savedFormat))
  | database => .database (.new analyzer (home database folder))

/-- What is left of the storage when an index is made: an index in memory is made with its home. -/
def prepare (p : Backend) (folder : Path) (s : IndexStorage) : Except Failure IndexStorage :=
  match p with
  | memory => match s.makeFolders (home memory folder) with
    | (s', none) => .ok s'
    | (_, some e) => .error e
  | database => .ok s

theorem home_newIndex [Language] (p : Backend) (folder : Path) :
    (p.newIndex folder).home = p.home folder := by
  cases p <;> rfl

theorem analyzer_newIndex [Language] (p : Backend) (folder : Path) :
    (p.newIndex folder).analyzer = analyzer := by
  cases p <;> rfl

/-- A storage in which the home is there is prepared. -/
theorem prepare_of_reaches {p : Backend} {folder : Path} {s : IndexStorage}
    (h : s.Reaches (p.home folder)) : p.prepare folder s = .ok s := by
  cases p with
  | memory => rw [prepare, Storage.makeFolders_of_reaches h]
  | database => rfl

/-- Folders stay when a storage is prepared. -/
theorem isFolder_prepare {p : Backend} {folder place : Path} {s s' : IndexStorage}
    (h : p.prepare folder s = .ok s') (hplace : s.isFolder place = true) :
    s'.isFolder place = true := by
  cases p with
  | memory =>
    have hmade := Storage.isFolder_makeFolders (memory.home folder) hplace
    rw [prepare] at h
    split at h
    · next made heq =>
      rw [heq] at hmade
      cases h
      exact hmade
    · cases h
  | database =>
    cases h
    exact hplace

theorem isFileName_homeName (p : Backend) : Storage.IsFileName p.homeName := by
  cases p <;> exact ⟨⟨rfl, by decide⟩, rfl, by decide⟩

end Backend

namespace Configuration

variable {c : Configuration} {p : Backend} {around : Surroundings} {backend dataset : Json}

theorem makeIndex_eq [Language] (h : c.backend? = some p.name) (s : IndexStorage) :
    c.settings.makeIndex s = (p.prepare c.folder s).map fun s' => (p.newIndex c.folder, s') := by
  have hbackend : c.settings.backend = .str p.name := by
    show (c.backend?.map Json.str).getD .null = _
    rw [h]
    rfl
  cases p with
  | memory =>
    have hstore : Settings.storeOf c.settings.backend = .ok .memory := by rw [hbackend]; rfl
    rw [Settings.makeIndex, hstore]
    show (match s.makeFolders (Backend.memory.home c.folder) with
      | (s', none) => Except.ok (Backend.memory.newIndex c.folder, s')
      | (_, some e) => Except.error e) = _
    rw [Backend.prepare]
    cases s.makeFolders (Backend.memory.home c.folder) with
    | mk made failure => cases failure <;> rfl
  | database =>
    have hstore : Settings.storeOf c.settings.backend = .ok .database := by rw [hbackend]; rfl
    rw [Settings.makeIndex, hstore]
    rfl

/-- What is chosen comes of one kind of index and one dataset. -/
theorem exists_of_choose (h : choose around backend dataset = .ok c) :
    ∃ kind source, choiceOf backend = .ok kind ∧ choiceOf dataset = .ok source ∧
      isSeveral kind = false ∧ isSeveral source = false ∧
      Backend.chosen (kind.getD (.text Settings.memoryBackend)) = .ok c.backends ∧
      c.dataset = (source.map pathOf).getD (.ok (.ofText around.dataset)) ∧
      c.folder = .ofText around.folder := by
  rw [choose, bind_eq_ok_iff] at h
  obtain ⟨kind, hkind, h⟩ := h
  obtain ⟨source, hsource, h⟩ := bind_eq_ok_iff.mp h
  split at h
  · cases h
  · next hseveral =>
    obtain ⟨parts, hparts, h⟩ := bind_eq_ok_iff.mp h
    cases h
    have hfew := Bool.or_eq_false_iff.mp (Bool.eq_false_iff.mpr hseveral)
    exact ⟨kind, source, hkind, hsource, hfew.1, hfew.2, hparts, rfl, rfl⟩

theorem folder_of_choose (h : choose around backend dataset = .ok c) :
    c.folder = .ofText around.folder := by
  obtain ⟨kind, source, -, -, -, -, -, -, hfolder⟩ := exists_of_choose h
  exact hfolder

end Configuration

namespace Work

variable {b : CliState} {around : Surroundings} {backend dataset : Json} {c : Configuration}
  {x : Index}

theorem does_configure_error {e : Failure}
    (h : Configuration.choose around backend dataset = .error e) :
    Does (configure around backend dataset) b (.error e) b := by
  refine Does.bind_error ?_
  rw [h]
  exact reads_lift _ b

/-- A configuration that is chosen is given if the folder of all indexes can be made. -/
theorem does_configure (h : Configuration.choose around backend dataset = .ok c) :
    Does (configure around backend dataset) b
      ((b.storage.makeFolders c.folder).2.elim (.ok c) .error)
      ⟨(b.storage.makeFolders c.folder).1, b.index⟩ := by
  have hchoose : Does (liftM (Configuration.choose around backend dataset)) b (.ok c) b := by
    rw [h]
    exact reads_lift _ b
  refine hchoose.bind ?_
  rintro d rfl
  have hget : runAt get d = (.ok d, d) := rfl
  rw [runAt_bind, hget]
  simp only [SearchCli.state]
  cases d.storage.makeFolders c.folder with
  | mk made failure => cases failure <;> exact ⟨rfl, rfl⟩

/-- The index that commands work on is the cached one. -/
theorem does_theIndex_of_some [Language] (h : b.index = some x) : Does (theIndex c) b
    (.ok x) b := by
  rintro d rfl
  have hget : runAt get d = (.ok d, d) := rfl
  have hindex : d.index = some x := h
  rw [theIndex, runAt_bind, hget]
  simp only [hindex]
  exact ⟨rfl, rfl⟩

/-- Where there is no index, one is made. -/
theorem does_theIndex_of_none [Language] (h : b.index = none) {p : Backend} (hc :
    c.backend? = some p.name) :
    Does (theIndex c) b ((p.prepare c.folder b.storage).map fun _ => p.newIndex c.folder)
      (match p.prepare c.folder b.storage with
        | .ok s => ⟨s, some (p.newIndex c.folder)⟩
        | .error _ => b) := by
  rintro d rfl
  have hget : runAt get d = (.ok d, d) := rfl
  have hindex : d.index = none := h
  have hmade := Configuration.makeIndex_eq hc d.storage
  rw [theIndex, runAt_bind, hget]
  simp only [hindex, hc, Option.isNone_some, Bool.false_eq_true, if_false]
  rw [runAt_bind, hget]
  simp only [hmade, SearchCli.state]
  cases p.prepare c.folder d.storage with
  | error e => exact ⟨rfl, rfl⟩
  | ok s => exact ⟨rfl, rfl⟩

/-- What an operation on an index has done is put down. -/
theorem does_settle (o : Outcome Index) :
    Does (settle o) b (o.failure.elim (.ok o.index) .error) ⟨o.storage, some o.index⟩ := by
  rintro d rfl
  obtain ⟨index, storage, log, failure⟩ := o
  cases failure <;> exact ⟨rfl, rfl⟩

end Work

end Concordance
