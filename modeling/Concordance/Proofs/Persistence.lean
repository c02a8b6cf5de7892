import Concordance.Proofs.Folders
import Concordance.Proofs.Reload

/-!
# A stored index stays stored

A creation renews one folder. An index that can be loaded from another folder can still
be loaded from it afterwards, and is the same index then: nothing is read of it but the
files of its own folder.
-/
namespace Concordance

open Storage (Renewed SameElsewhere IsFileName)

namespace Storage

variable {κ : Type}

/-- Whatever is read in a folder is read in another one as well, which may be of another storage. -/
def Copied (s : Storage κ) (path : Path) (s' : Storage κ) (path' : Path) : Prop :=
  ∀ ⦃file content⦄, IsFileName file → s.read (path.child file) = .ok content →
    s'.read (path'.child file) = .ok content

/-- Whatever is read in the folder at a path is read there in another storage as well. -/
structure Keeps (path : Path) (s s' : Storage κ) : Prop where
  contains : s.contains path = .ok true → s'.contains path = .ok true
  read : Copied s path s' path

theorem SameElsewhere.keeps {home : Path} {name other : Text} {s s' : Storage κ}
    (h : SameElsewhere home name s s') (hs : s.Reaches home) (hs' : s'.Reaches home)
    (hother : other ≠ name) (hplain : home.Takes other) : Keeps (home.child other) s s' where
  contains hthere := by
    rw [hs.contains_child hplain] at hthere
    rw [hs'.contains_child hplain, h.node?_inside hother, hthere]
  read _ _ hfile hread := h.read hs hs' hother hplain hfile hread

end Storage

namespace Tables

variable {s s' : IndexStorage} {folder : Path} {form : Form}

theorem saved_keeps {α : Type} (h : Storage.Keeps folder s s') {file : Text}
    (hfile : file ∈ fileNames) {f : Json → Except Failure α} {a : α}
    (hsaved : saved s folder form file >>= f = .ok a) :
    saved s' folder form file >>= f = .ok a := by
  rw [bind_eq_ok_iff] at hsaved ⊢
  obtain ⟨j, hj, ha⟩ := hsaved
  rw [saved, bind_eq_ok_iff] at hj
  obtain ⟨content, hread, hcontent⟩ := hj
  exact ⟨j, by rw [saved, h.read (isFileName_of_mem hfile) hread, ok_bind, hcontent], ha⟩

/-- Tables are loaded from a folder as long as its files are read. -/
theorem load_keeps (h : Storage.Keeps folder s s') {held loaded : HeldTables}
    (hload : held.load s folder form = (loaded, none)) :
    held.load s' folder form = (loaded, none) := by
  rw [HeldTables.load_eq_none_iff] at hload ⊢
  obtain ⟨t, rfl, hterms, hcontents, hstatistics⟩ := hload
  exact ⟨t, rfl, saved_keeps h (.tail _ (.head _)) hterms,
    saved_keeps h (.tail _ (.tail _ (.head _))) hcontents,
    saved_keeps h (.tail _ (.tail _ (.tail _ (.head _)))) hstatistics⟩

end Tables

namespace MemoryIndex

variable {s s' : IndexStorage} {path : Path} {x y : MemoryIndex} {log : List LogLine}

theorem metadataIn_keeps (h : Storage.Keeps path s s') {metadata : Json}
    (hmetadata : metadataIn s path = .ok metadata) : metadataIn s' path = .ok metadata := by
  rw [metadataIn, bind_eq_ok_iff] at hmetadata
  obtain ⟨content, hread, hcontent⟩ := hmetadata
  rw [metadataIn, h.read (Tables.isFileName_of_mem (.head _)) hread, ok_bind, hcontent]

theorem restore_keeps (h : Storage.Keeps path s s') {metadata : Json}
    (hrestore : x.restore s path metadata = (y, .ok log)) :
    x.restore s' path metadata = (y, .ok log) := by
  unfold restore at hrestore ⊢
  split at hrestore
  · cases hrestore
  · cases hrestore
  · simp only at hrestore ⊢
    split at hrestore
    · cases hrestore
    · split at hrestore
      · cases hrestore
      · next tables hload =>
        simp only [Tables.load_keeps h hload]
        exact hrestore

theorem load_keeps (h : Storage.Keeps path s s') (hload : x.load s path = ⟨y, s, log, none⟩) :
    x.load s' path = ⟨y, s', log, none⟩ := by
  unfold load at hload ⊢
  split at hload
  · cases hload
  · cases hload
  · next hthere =>
    split at hload
    · cases hload
    · next metadata hmetadata =>
      split at hload
      · next hrestore =>
        cases hload
        simp only [h.contains hthere, metadataIn_keeps h hmetadata, restore_keeps h hrestore]
      · cases hload

end MemoryIndex

namespace DatabaseIndex

variable {s s' : IndexStorage} {path : Path} {x y : DatabaseIndex} {log : List LogLine}

theorem isFileName_databaseFile : IsFileName databaseFile := ⟨⟨rfl, by decide⟩, rfl, by decide⟩

theorem load_keeps (h : Storage.Keeps path s s') (hload : x.load s path = ⟨y, s, log, none⟩) :
    x.load s' path = ⟨y, s', log, none⟩ := by
  obtain ⟨hthere, db, c, hread, hc⟩ := exists_of_load (congrArg Outcome.failure hload)
  rw [load_of_read hthere hread hc] at hload
  cases hload
  exact load_of_read (h.contains hthere) (h.read isFileName_databaseFile hread) hc x

end DatabaseIndex

section Creation

variable {s : IndexStorage} {now name : Text} {entries : List Json}

/-- A creation renews the folder of its name. -/
theorem MemoryIndex.renewed_create {x : MemoryIndex} (hdirect : x.home.Direct)
    (hname : x.home.Takes name) (hroot : s.isFolder (x.home.upTo 0).destination = true)
    (h : (x.create s now (.str name) entries).failure = none) :
    Renewed x.home name s (x.create s now (.str name) entries).storage := by
  obtain ⟨-, -, -, -, cleared, hcleared, hsaved⟩ := saved_create h
  obtain ⟨made, format, hmade, -, -, hwritten⟩ := save_eq_none hsaved
  have hstored : (made.writeIn (x.home.child name) _).1 =
      (x.create s now (.str name) entries).storage := congrArg Prod.fst hwritten
  rw [← hstored]
  exact (hcleared.renewed hdirect hname hroot hmade).writeIn hname.1.1 _

/-- Where an index has been created, a creation of any other entries renews the same folder, whether
it succeeds or not. -/
theorem DatabaseIndex.renewed_create_of_others {x : DatabaseIndex} (hdirect : x.home.Direct)
    (hname : x.home.Takes name) (hroot : s.isFolder (x.home.upTo 0).destination = true)
    (h : (x.create s (.str name) entries).failure = none) (others : List Json) :
    Renewed x.home name s (x.create s (.str name) others).storage := by
  obtain ⟨t, cleared, opened, hname', hcleared, hopened, hfills⟩ := exists_fill h
  cases hname'
  obtain ⟨log, hlog⟩ := hfills others
  obtain ⟨made, hmade, hwritten⟩ := hopened
  have hrenewed := (hcleared.renewed hdirect hname hroot hmade).writeIn hname.1.1
    [(databaseFile, .database .empty)]
  rw [hwritten] at hrenewed
  rw [hlog, fill]
  simp only
  split <;> exact hrenewed.writeIn hname.1.1 _

theorem DatabaseIndex.renewed_create {x : DatabaseIndex} (hdirect : x.home.Direct)
    (hname : x.home.Takes name) (hroot : s.isFolder (x.home.upTo 0).destination = true)
    (h : (x.create s (.str name) entries).failure = none) :
    Renewed x.home name s (x.create s (.str name) entries).storage :=
  renewed_create_of_others hdirect hname hroot h entries

variable {s' : IndexStorage} {path : Path}

/-- What a load finds where the files of a created index have been copied are the tables of that
index, as they are read. -/
theorem MemoryIndex.tables_load_copied {x y : MemoryIndex}
    (h : (x.create s now (.str name) entries).failure = none)
    (hcopied : Storage.Copied (x.create s now (.str name) entries).storage (x.home.child name)
      s' path)
    (hload : (y.load s' path).failure = none) :
    (y.load s' path).index.tables = .all
      ((Ingestion.ingest (addDocument x.analyzer) .empty entries).built.reread x.format.form) := by
  obtain ⟨hformat, -, -, -, cleared, -, hsaved⟩ := saved_create h
  obtain ⟨-, format, hvalue, -, hread⟩ := read_of_save hsaved
  rw [hvalue] at hread
  rw [← hformat, hvalue]
  exact tables_of_load
    (fun f hf => hcopied (Tables.isFileName_of_mem (Tables.mem_fileNames hf)) (hread f hf))
    (represents_of_stopped (ingested_of_create h).1) hload

theorem DatabaseIndex.view_load {x y : DatabaseIndex}
    (h : (x.create s (.str name) entries).failure = none)
    (hcopied : Storage.Copied (x.create s (.str name) entries).storage (x.home.child name) s' path)
    (hload : (y.load s' path).failure = none) :
    (y.load s' path).index.view = (x.create s (.str name) entries).index.view := by
  obtain ⟨hthere, db, c, hread, hc⟩ := exists_of_load hload
  have hcreated := x.load_create h y
  obtain ⟨hthere', db', c', hread', hc'⟩ := exists_of_load (congrArg Outcome.failure hcreated)
  have hsame := hcopied isFileName_databaseFile hread'
  rw [hread] at hsame
  cases hsame
  rw [hc] at hc'
  cases hc'
  rw [load_of_read hthere' hread' hc] at hcreated
  rw [load_of_read hthere hread hc]
  exact congrArg (fun o => o.index.view) hcreated

end Creation

namespace Index

variable {x y z : Index} {s s' : IndexStorage} {path : Path}

/-- What an index is set to when it is made. -/
def settings (x : Index) : Analyzer × Path := (x.analyzer, x.home)

/-- Two states of one index: it is of one kind and set to the same. -/
structure SameIndex (x y : Index) : Prop where
  kind : x.SameKind y
  settings : x.settings = y.settings

namespace SameIndex

theorem refl (x : Index) : x.SameIndex x := ⟨.refl x, rfl⟩

theorem symm (h : x.SameIndex y) : y.SameIndex x := ⟨h.kind.symm, h.settings.symm⟩

theorem trans (h : x.SameIndex y) (h' : y.SameIndex z) : x.SameIndex z :=
  ⟨h.kind.trans h'.kind, h.settings.trans h'.settings⟩

theorem home (h : x.SameIndex y) : x.home = y.home := congrArg Prod.snd h.settings

theorem withSettings (h : x.SameIndex y) : x.withSettings y.analyzer y.home = x := by
  have hanalyzer : x.analyzer = y.analyzer := congrArg Prod.fst h.settings
  rw [← hanalyzer, ← h.home]
  cases x <;> rfl

end SameIndex

theorem sameIndex_formatRestored (x : Index) : x.SameIndex x.formatRestored := by
  cases x with
  | memory x => exact ⟨.memory _ _, rfl⟩
  | database x => exact .refl _

theorem sameIndex_create (x : Index) (s : IndexStorage) (now : Text) (name : Json)
    (entries : List Json) : x.SameIndex (x.create s now name entries).index := by
  cases x with
  | memory x => exact ⟨.memory _ _, (x.settings_create s now name entries).symm⟩
  | database x => exact ⟨.database _ _, (x.settings_create s name entries).symm⟩

theorem sameIndex_load (x : Index) (s : IndexStorage) (path : Path) :
    x.SameIndex (x.load s path).index := by
  cases x with
  | memory x => exact ⟨.memory _ _, (x.settings_load s path).symm⟩
  | database x => exact ⟨.database _ _, (x.settings_load s path).symm⟩

theorem sameIndex_delete (x : Index) (s : IndexStorage) (name : Text) :
    x.SameIndex (x.delete s name).index := by
  cases x with
  | memory x => exact ⟨.memory _ _, congrArg MemoryIndex.settings (x.index_delete s name).symm⟩
  | database x => exact ⟨.database _ _, (x.settings_delete s name).symm⟩

theorem storage_load (x : Index) (s : IndexStorage) (path : Path) :
    (x.load s path).storage = s := by
  cases x with
  | memory x => exact x.storage_load s path
  | database x => exact x.storage_load s path

theorem load_keeps (hkeeps : Storage.Keeps path s s') {log : List LogLine}
    (h : x.load s path = ⟨y, s, log, none⟩) : x.load s' path = ⟨y, s', log, none⟩ := by
  cases x with
  | memory x =>
    cases hload : x.load s path with
    | mk z stored log' failure =>
      simp only [load, hload, Outcome.map] at h
      cases h
      exact congrArg (Outcome.map Index.memory) (MemoryIndex.load_keeps hkeeps hload)
  | database x =>
    cases hload : x.load s path with
    | mk z stored log' failure =>
      simp only [load, hload, Outcome.map] at h
      cases h
      exact congrArg (Outcome.map Index.database) (DatabaseIndex.load_keeps hkeeps hload)

/-- An index is stored at a path: every index of its kind that loads what is there is this index
then as it is read, apart from its settings. -/
def StoredAt (x : Index) (s : IndexStorage) (path : Path) : Prop :=
  ∀ y, x.SameKind y →
    ∃ log, y.load s path = ⟨x.reread.withSettings y.analyzer y.home, s, log, none⟩

/-- An index is stored as long as the files in its folder are read. -/
theorem StoredAt.keeps (h : x.StoredAt s path) (hkeeps : Storage.Keeps path s s') :
    x.StoredAt s' path := by
  intro y hkind
  obtain ⟨log, hlog⟩ := h y hkind
  exact ⟨log, load_keeps hkeeps hlog⟩

section Creation

variable {now name : Text} {entries : List Json}

theorem storedAt_create (h : (x.create s now (.str name) entries).failure = none)
    (hnow : Moment.isMoment now = true) :
    (x.create s now (.str name) entries).index.StoredAt
      (x.create s now (.str name) entries).storage (x.home.child name) :=
  fun _ hkind => load_eq_create ((x.sameIndex_create s now _ entries).kind.trans hkind) h hnow

theorem renewed_create (hdirect : x.home.Direct) (hname : x.home.Takes name)
    (hroot : s.isFolder (x.home.upTo 0).destination = true)
    (h : (x.create s now (.str name) entries).failure = none) :
    Renewed x.home name s (x.create s now (.str name) entries).storage := by
  cases x with
  | memory x => exact x.renewed_create hdirect hname hroot h
  | database x => exact x.renewed_create hdirect hname hroot h

end Creation

end Index

end Concordance
