import Concordance.Proofs.CachedIndex
import Concordance.Proofs.SavedFormat
import Concordance.Proofs.Shelf

/-!
# A CLI for indexes of one backend

Where all indexes are of one backend, the cached index is set as a new one would be, and the
folder in which such indexes are kept is there. Every operation on the index leaves the state
so.
-/
namespace Concordance

open Index (Interchangeable)
open Work (Does)

/-- How the storage lies where indexes are in memory: all that are stored are of one format, and the
folder around them is there once an index is cached. -/
structure MemoryReady (folder : Path) (b : CliState) : Prop where
  direct : (Backend.memory.home folder).Direct
  root : b.storage.isFolder ((Backend.memory.home folder).upTo 0).destination = true
  saved : SavedAs (· = Backend.savedFormat) b.storage
  home : b.index ≠ none → b.storage.Reaches (Backend.memory.home folder)

/-- What there is in the storage for an index in memory: its home, and indexes of one format. -/
structure MemoryStored (folder : Path) (s : IndexStorage) : Prop where
  home : s.Reaches (Backend.memory.home folder)
  saved : SavedAs (· = Backend.savedFormat) s

/-- A state in which commands work on indexes of one backend. -/
structure UsesBackend [Language] (p : Backend) (folder : Path) (b : CliState) : Prop where
  index : ∀ x, b.index = some x → x.Interchangeable (p.newIndex folder)
  memory : p = .memory → MemoryReady folder b

namespace Backend

theorem exists_memory [Language] {folder : Path} {x : Index} (h : x.Interchangeable
    (memory.newIndex folder)) :
    ∃ m, x = .memory m ∧ m.home = memory.home folder ∧ m.format = .value savedFormat := by
  obtain ⟨⟨hkind, hsettings⟩, hformat⟩ := h
  cases x with
  | memory m => exact ⟨m, rfl, congrArg Prod.snd hsettings, Option.some.inj hformat⟩
  | database d => cases hkind

end Backend

namespace MemoryStored

variable {folder : Path} {s : IndexStorage}

theorem makeFolders (h : MemoryStored folder s) (path : Path) :
    MemoryStored folder (s.makeFolders path).1 where
  home := h.home.makeFolders path
  saved := h.saved.of_noNewFiles (Storage.noNewFiles_makeFolders s path)

theorem writeIn (h : MemoryStored folder s) (path : Path) {files : List (Text × Content)}
    (hfiles : MemoryIndex.NamesFormat (.value Backend.savedFormat) files) :
    MemoryStored folder (s.writeIn path files).1 where
  home := h.home.writeIn path _
  saved := h.saved.writeIn rfl path hfiles

/-- The home stays when a folder in it is removed. -/
theorem remove (h : MemoryStored folder s) (hdirect : (Backend.memory.home folder).Direct) {name :
    Text}
    (hname : Storage.IsName name) :
    MemoryStored folder (s.remove ((Backend.memory.home folder).child name)).1 where
  home := h.home.remove_child hdirect hname
  saved := h.saved.of_noNewFiles (Storage.noNewFiles_remove s _)

end MemoryStored

namespace UsesBackend

variable [Language] {p : Backend} {folder : Path} {b : CliState} {x : Index} {c : Configuration}
  {s : IndexStorage}

theorem makeFolders (h : UsesBackend p folder b) (path : Path) :
    UsesBackend p folder ⟨(b.storage.makeFolders path).1, b.index⟩ where
  index := h.index
  memory hp := {
    direct := (h.memory hp).direct
    root := Storage.isFolder_makeFolders path (h.memory hp).root
    saved := (h.memory hp).saved.of_noNewFiles (Storage.noNewFiles_makeFolders _ path)
    home := fun hindex => ((h.memory hp).home hindex).makeFolders path }

theorem stored (h : UsesBackend p folder b) (hx : b.index = some x) (hp : p = .memory) :
    MemoryStored folder b.storage where
  home := (h.memory hp).home (by rw [hx]; exact Option.some_ne_none x)
  saved := (h.memory hp).saved

/-- Where there is an index, nothing is left to be made before the next one. -/
theorem prepare (h : UsesBackend p folder b) (hx : b.index = some x) :
    p.prepare folder b.storage = .ok b.storage := by
  cases p with
  | memory => exact Backend.prepare_of_reaches (h.stored hx rfl).home
  | database => rfl

/-- A new index is cached where there is none. -/
theorem newIndex (h : UsesBackend p folder b) (hs : p.prepare folder b.storage = .ok s) :
    UsesBackend p folder ⟨s, some (p.newIndex folder)⟩ where
  index := by
    rintro x hx
    cases hx
    exact .refl _
  memory := by
    rintro rfl
    have hready := h.memory rfl
    have hmade : b.storage.makeFolders (Backend.memory.home folder) = (s, none) := by
      rw [Backend.prepare] at hs
      split at hs
      · next hmade =>
        cases hs
        exact hmade
      · cases hs
    have hreaches := (Storage.reaches_of_makeFolders hready.root hmade).1
    have hfiles := b.storage.noNewFiles_makeFolders (Backend.memory.home folder)
    rw [hmade] at hfiles
    exact {
      direct := hready.direct
      root := hreaches.folders 0 (Nat.zero_le _)
      saved := hready.saved.of_noNewFiles hfiles
      home := fun _ => hreaches }

/-- An index is at hand, be it there already or made anew, if the storage can be prepared for it. -/
theorem does_theIndex (h : UsesBackend p folder b) (hc : c.backend? = some p.name)
    (hfolder : c.folder = folder) :
    (∃ s x, p.prepare folder b.storage = .ok s ∧ Does (Work.theIndex c) b (.ok x) ⟨s, some x⟩ ∧
      UsesBackend p folder ⟨s, some x⟩) ∨
    ∃ e, p.prepare folder b.storage = .error e ∧ Does (Work.theIndex c) b (.error e) b := by
  subst hfolder
  cases hindex : b.index with
  | some x =>
    refine .inl ⟨b.storage, x, h.prepare hindex, ?_, ?_⟩
    all_goals rw [← hindex]
    · exact Work.does_theIndex_of_some hindex
    · exact h
  | none =>
    have hdoes := Work.does_theIndex_of_none hindex hc
    cases hs : p.prepare c.folder b.storage with
    | ok s =>
      rw [hs] at hdoes
      exact .inl ⟨s, _, rfl, hdoes, h.newIndex hs⟩
    | error e =>
      rw [hs] at hdoes
      exact .inr ⟨e, rfl, hdoes⟩

/-- An operation on the cached index keeps to the backend if it leaves the index set as it was
and keeps what lies in the storage. -/
theorem settle (h : UsesBackend p folder b) (hx : b.index = some x) {o : Outcome Index}
    (hindex : o.index.Interchangeable x) (hstorage : p = .memory → MemoryStored folder o.storage) :
    UsesBackend p folder ⟨o.storage, some o.index⟩ where
  index := by
    rintro y hy
    cases hy
    exact hindex.trans (h.index x hx)
  memory hp := {
    direct := (h.memory hp).direct
    root := (hstorage hp).home.folders 0 (Nat.zero_le _)
    saved := (hstorage hp).saved
    home := fun _ => (hstorage hp).home }

theorem create (h : UsesBackend p folder b) (hx : b.index = some x) {name : Json}
    (hname : p = .memory → ∀ t, name = .str t → Storage.IsName t) (now : Text)
    (entries : List Json) :
    UsesBackend p folder ⟨(x.create b.storage now name entries).storage,
      some (x.create b.storage now name entries).index⟩ := by
  refine h.settle hx (x.interchangeable_create b.storage now name entries) ?_
  rintro rfl
  obtain ⟨m, rfl, hhome, hformat⟩ := Backend.exists_memory (h.index x hx)
  refine MemoryIndex.storage_create (P := MemoryStored folder) hformat ?_ ?_ ?_ (h.stored hx rfl)
    now
    entries
  · intro t ht s hs
    rw [hhome]
    exact hs.remove (h.memory rfl).direct (hname rfl t ht)
  · exact fun s path hs => hs.makeFolders path
  · exact fun s path files hs hfiles => hs.writeIn path hfiles

theorem load (h : UsesBackend p folder b) (hx : b.index = some x) (path : Path) :
    UsesBackend p folder ⟨(x.load b.storage path).storage, some (x.load b.storage path).index⟩ := by
  refine h.settle hx (Index.interchangeable_load ?_ path) ?_
  · intro format hformat
    rw [(h.index x hx).format] at hformat
    cases p with
    | memory => exact ⟨_, (Option.some.inj hformat).symm, (h.memory rfl).saved⟩
    | database => cases hformat
  · rw [x.storage_load]
    exact h.stored hx

theorem delete (h : UsesBackend p folder b) (hx : b.index = some x) {name : Text}
    (hname : p = .memory → Storage.IsName name) :
    UsesBackend p folder ⟨(x.delete b.storage name).storage,
      some (x.delete b.storage name).index⟩ := by
  refine h.settle hx (x.interchangeable_delete b.storage name) ?_
  rintro rfl
  obtain ⟨m, rfl, hhome, -⟩ := Backend.exists_memory (h.index x hx)
  have hstored : MemoryStored folder b.storage := h.stored hx rfl
  refine Index.storage_delete hstored ?_
  rw [Index.home, hhome]
  exact hstored.remove (h.memory rfl).direct (hname rfl)

end UsesBackend

end Concordance
