import Concordance.Proofs.Stock
import Concordance.Settings

/-!
# The storage as a shelf of indexes

An index and its storage answer like a table that has under each name the index as it was
right after it was created. Creating an index puts it on the shelf, in place of another
one of its name; deleting takes it away; loading leaves the shelf as it is. What is on
the shelf is the spec here: it is told by the calls alone, and nothing is said of it
about files and folders.
-/
namespace Concordance

namespace Index

variable {x : Index} {s : IndexStorage} {path : Path} {name : Text}

/-- How the load of a path fails where nothing is stored. -/
def absentAt (x : Index) (path : Path) : Failure :=
  match x with
  | memory _ => .noIndexAt path.toText
  | database _ => .noDatabaseAt path.toText

theorem load_of_absent (h : s.contains path = .ok false) :
    ∃ log, x.load s path = ⟨x, s, log, some (x.absentAt path)⟩ := by
  cases x with
  | memory x => exact ⟨_, by simp only [load, MemoryIndex.load, h]; rfl⟩
  | database x => exact ⟨_, by simp only [load, DatabaseIndex.load, h]; rfl⟩

theorem delete_of_absent (h : s.contains (x.home.child name) = .ok false) :
    (x.delete s name).storage = s ∧ (x.delete s name).failure = some (.noIndexNamed name) := by
  cases x with
  | memory x =>
    simp only [home] at h
    simp [delete, MemoryIndex.delete, h, Outcome.map]
  | database x =>
    simp only [home] at h
    simp [delete, DatabaseIndex.delete, h, Outcome.map]

theorem delete_of_present (h : s.contains (x.home.child name) = .ok true) :
    (x.delete s name).storage = (s.remove (x.home.child name)).1 ∧
      (x.delete s name).failure = (s.remove (x.home.child name)).2 := by
  cases x with
  | memory x =>
    simp only [home] at h
    simp [delete, MemoryIndex.delete, h, Outcome.map, home]
  | database x =>
    simp only [home] at h
    simp [delete, DatabaseIndex.delete, h, Outcome.map, home]

/-- What a deletion keeps of the storage: what the removal of its folder keeps. -/
theorem storage_delete {P : IndexStorage → Prop} (hs : P s)
    (hremove : P (s.remove (x.home.child name)).1) : P (x.delete s name).storage := by
  cases hthere : s.contains (x.home.child name) with
  | ok there =>
    cases there with
    | false => rwa [(delete_of_absent hthere).1]
    | true => rwa [(delete_of_present hthere).1]
  | error e =>
    cases x with
    | memory x =>
      simp only [home] at hthere
      simpa only [delete, MemoryIndex.delete, hthere, Outcome.map] using hs
    | database x =>
      simp only [home] at hthere
      simpa only [delete, DatabaseIndex.delete, hthere, Outcome.map] using hs

theorem storage_delete_of_clears {cleared : IndexStorage}
    (h : s.Clears (x.home.child name) cleared) : (x.delete s name).storage = cleared := by
  obtain ⟨hcontains, rfl⟩ | ⟨hcontains, hremoved⟩ := h
  · exact (delete_of_absent hcontains).1
  · rw [(delete_of_present hcontains).1, hremoved]

theorem stored_of_reaches (h : s.Reaches x.home) : x.stored s = s.folders x.home := by
  have hthere := h.contains
  cases x with
  | memory x => rfl
  | database x =>
    simp only [home] at hthere ⊢
    rw [stored, DatabaseIndex.stored, hthere]
    rfl

theorem stored_of_missing {d : DatabaseIndex} (hkind : (Index.database d).SameKind x)
    (h : s.contains x.home = .ok false) : x.stored s = .ok [] := by
  cases hkind with
  | database _ x =>
    simp only [home] at h
    rw [stored, DatabaseIndex.stored, h]
    rfl

end Index

namespace Session

/-- The shelf after a call: under each name that is stored the index as it was created. -/
def shelve (s : Session) (shelf : Table Text Index) : Call → Table Text Index
  | .create now (.str name) entries =>
    shelf.set name (s.after (.create now (.str name) entries)).index
  | .create _ _ _ => shelf
  | .load _ => shelf
  | .delete name => shelf.erase name

/-- The shelf after calls that are made one after the other. -/
def shelfAfter (s : Session) (shelf : Table Text Index) : List Call → Table Text Index
  | [] => shelf
  | c :: rest => (s.after c).shelfAfter (s.shelve shelf c) rest

/-- A call that names something in the home of the index, and returns if it is a creation. The terms
of what is created are read as they are written. -/
def Plain (s : Session) : Call → Prop
  | .create now name entries =>
    (∃ t, name = .str t ∧ s.index.home.Takes t) ∧ Moment.isMoment now = true ∧
      s.index.KeepsTerms entries ∧
      (s.outcome (.create now name entries)).failure = none
  | .load path => ∃ name, s.index.home.Takes name ∧ path = s.index.home.child name
  | .delete name => s.index.home.Takes name

/-- Plain calls one after the other. -/
def AllPlain (s : Session) : List Call → Prop
  | [] => True
  | c :: rest => s.Plain c ∧ (s.after c).AllPlain rest

/-- Nothing is stored yet: the home of the index is empty, or is still to be made where it is made
with the first index. -/
structure Vacant (s : Session) : Prop where
  direct : s.index.home.Direct
  root : s.storage.isFolder (s.index.home.upTo 0).destination = true
  home : s.storage.Reaches s.index.home ∨
    (∃ x, s.index = .database x) ∧ s.storage.contains s.index.home = .ok false
  empty : ∀ name, (s.index.home.destination.inside name).isOutward = false →
    s.storage.node? (s.index.home.destination.inside name) = none

/-- An index and its storage answer as a shelf of indexes does. -/
structure Serves (s : Session) (shelf : Table Text Index) : Prop where
  /-- The names on the shelf are listed in order. -/
  listed : s.index.stored s.storage = .ok (sortBy (fun a b => !(b < a : Bool)) shelf.keys)
  /-- What is on the shelf is loaded, and is the index then that was put there, with its format as
  it is read. -/
  loaded : ∀ name created, shelf.get? name = some created → ∃ log,
    s.outcome (.load (s.index.home.child name)) = ⟨created.formatRestored, s.storage, log, none⟩
  deleted : ∀ name created, shelf.get? name = some created →
    (s.outcome (.delete name)).failure = none
  /-- What is not on the shelf is not found, and then nothing changes. -/
  notLoaded : ∀ name, s.index.home.Takes name → shelf.get? name = none → ∃ log,
    s.outcome (.load (s.index.home.child name)) =
      ⟨s.index, s.storage, log, some (s.index.absentAt (s.index.home.child name))⟩
  notDeleted : ∀ name, s.index.home.Takes name → shelf.get? name = none →
    (s.outcome (.delete name)).storage = s.storage ∧
      (s.outcome (.delete name)).failure = some (.noIndexNamed name)

/-- The storage holds what is on the shelf, each index in the folder of its name. -/
structure Shelves (x : Index) (s : Session) (shelf : Table Text Index) : Prop where
  same : x.SameIndex s.index
  root : s.storage.isFolder (x.home.upTo 0).destination = true
  home : s.storage.Reaches x.home ∨
    shelf = .empty ∧ (∃ d, x = .database d) ∧ s.storage.contains x.home = .ok false
  folders : ∀ name, (x.home.destination.inside name).isOutward = false →
    s.storage.node? (x.home.destination.inside name) = (shelf.get? name).map fun _ => .folder
  stored : ∀ name created, shelf.get? name = some created →
    x.home.Takes name ∧ x.SameIndex created ∧ created.reread = created.formatRestored ∧
      created.StoredAt s.storage (x.home.child name)

/-- An index of the same settings is stored under a name, and is read as it was. -/
def Shelved (x : Index) (name : Text) (created : Index) (s : IndexStorage) : Prop :=
  x.SameIndex created ∧ created.reread = created.formatRestored ∧
    created.StoredAt s (x.home.child name)

theorem shelved_ofFolder (x : Index) : OfFolder x.home (Shelved x) :=
  fun _ _ _ _ hkeeps h => ⟨h.1, h.2.1, h.2.2.keeps hkeeps⟩

theorem Stocks.shelves {x : Index} {s : Session} {shelf : Table Text Index}
    (h : Stocks x (Shelved x) s shelf) : Shelves x s shelf :=
  ⟨h.same, h.root, h.home, h.folders, h.kept⟩

namespace Shelves

variable {x : Index} {s : Session} {shelf : Table Text Index}

theorem stocks (h : Shelves x s shelf) : Stocks x (Shelved x) s shelf :=
  ⟨h.same, h.root, h.home, h.folders, h.stored⟩

theorem create (h : Shelves x s shelf) (hdirect : x.home.Direct) {now name : Text}
    {entries : List Json} (hcall : s.Plain (.create now (.str name) entries)) :
    Shelves x (s.after (.create now (.str name) entries))
      (s.shelve shelf (.create now (.str name) entries)) := by
  obtain ⟨⟨t, ht, hname⟩, hnow, hterms, hcreated⟩ := hcall
  cases ht
  have hhome := h.same.home
  have hrenewed := Index.renewed_create (hhome ▸ hdirect) hname (hhome ▸ h.root) hcreated
  have hat := Index.storedAt_create hcreated hnow
  rw [← hhome] at hrenewed hname hat
  have hsame := h.same.trans (s.index.sameIndex_create s.storage now (.str name) entries)
  have hset := h.stocks.set (t := s.after (.create now (.str name) entries)) (shelved_ofFolder x)
    hsame hname hrenewed ⟨hsame, Index.reread_create hcreated hterms, hat⟩
  exact hset.shelves

theorem load (h : Shelves x s shelf) (path : Path) : Shelves x (s.after (.load path)) shelf :=
  (h.stocks.load path).shelves

theorem delete (h : Shelves x s shelf) (hdirect : x.home.Direct) {name : Text}
    (hname : x.home.Takes name) : Shelves x (s.after (.delete name)) (shelf.erase name) := by
  obtain ⟨cleared, hcleared, hleft⟩ := h.stocks.clears (shelved_ofFolder x) hdirect hname
  have hstorage := Index.storage_delete_of_clears (h.same.home ▸ hcleared)
  exact (hleft _ (h.same.trans (s.index.sameIndex_delete s.storage name)) hstorage).shelves

/-- What is on the shelf can be deleted. -/
theorem deleted (h : Shelves x s shelf) (hdirect : x.home.Direct) {name : Text} {created : Index}
    (hstored : shelf.get? name = some created) :
    (s.outcome (.delete name)).failure = none := by
  have hname := (h.stored name created hstored).1
  have hcontains := h.stocks.contains hname
  obtain ⟨s', hremoved, -⟩ := h.stocks.removed (shelved_ofFolder x) hdirect hname hstored
  rw [hstored, h.same.home] at hcontains
  rw [h.same.home] at hremoved
  show (s.index.delete s.storage name).failure = none
  rw [(Index.delete_of_present hcontains).2, hremoved]

theorem after (h : Shelves x s shelf) (hdirect : x.home.Direct) {c : Call} (hc : s.Plain c) :
    Shelves x (s.after c) (s.shelve shelf c) := by
  cases c with
  | create now name entries =>
    obtain ⟨t, rfl, -⟩ := hc.1
    exact h.create hdirect hc
  | load path => exact h.load path
  | delete name => exact h.delete hdirect (h.same.home ▸ hc)

theorem run (h : Shelves x s shelf) (hdirect : x.home.Direct) {calls : List Call}
    (hcalls : s.AllPlain calls) : Shelves x (s.run calls) (s.shelfAfter shelf calls) := by
  induction calls generalizing s shelf with
  | nil => exact h
  | cons c rest ih => exact ih (h.after hdirect hcalls.1) hcalls.2

theorem mem_keys_iff (h : Shelves x s shelf) (name : Text) :
    name ∈ shelf.keys ↔ (x.home.destination.inside name).isOutward = false ∧
      s.storage.isFolder (x.home.destination.inside name) = true := by
  rw [Table.mem_keys, Option.isSome_iff_exists, Storage.isFolder_iff]
  constructor
  · rintro ⟨created, hstored⟩
    have hplain := (h.stored name created hstored).1
    have houtward := Path.isOutward_inside hplain.1.1.2 x.home.destination
    exact ⟨houtward, by rw [h.folders name houtward, hstored]; rfl⟩
  · rintro ⟨houtward, hfolder⟩
    rw [h.folders name houtward, Option.map_eq_some_iff] at hfolder
    obtain ⟨created, hstored, -⟩ := hfolder
    exact ⟨created, hstored⟩

theorem listed (h : Shelves x s shelf) :
    s.index.stored s.storage = .ok (sortBy (fun a b => !(b < a : Bool)) shelf.keys) := by
  obtain hreaches | ⟨rfl, ⟨d, rfl⟩, hmissing⟩ := h.home
  · rw [Index.stored_of_reaches (h.same.home ▸ hreaches), ← h.same.home]
    exact Storage.folders_eq hreaches (Table.nodup_keys shelf) h.mem_keys_iff
  · rw [h.same.home] at hmissing
    exact Index.stored_of_missing h.same.kind hmissing

theorem serves (h : Shelves x s shelf) (hdirect : x.home.Direct) : s.Serves shelf where
  listed := h.listed
  loaded name created hstored := by
    obtain ⟨-, hsame, hread, hat⟩ := h.stored name created hstored
    have hcurrent := hsame.symm.trans h.same
    obtain ⟨log, hlog⟩ := hat s.index hcurrent.kind
    rw [hread, created.sameIndex_formatRestored.symm.trans hcurrent |>.withSettings,
      h.same.home] at hlog
    exact ⟨log, hlog⟩
  deleted _ _ hstored := h.deleted hdirect hstored
  notLoaded name hname hnone := by
    have hcontains := h.stocks.contains (h.same.home ▸ hname)
    rw [hnone, h.same.home] at hcontains
    exact Index.load_of_absent hcontains
  notDeleted name hname hnone := by
    have hcontains := h.stocks.contains (h.same.home ▸ hname)
    rw [hnone, h.same.home] at hcontains
    exact Index.delete_of_absent hcontains

end Shelves

theorem home_after (s : Session) (c : Call) : (s.after c).index.home = s.index.home := by
  cases c with
  | create now name entries => exact (s.index.sameIndex_create s.storage now name entries).home.symm
  | load path => exact (s.index.sameIndex_load s.storage path).home.symm
  | delete name => exact (s.index.sameIndex_delete s.storage name).home.symm

variable {s : Session}

theorem Vacant.stocks (h : s.Vacant) {α : Type} (P : Text → α → IndexStorage → Prop) :
    Stocks s.index P s .empty where
  same := .refl s.index
  root := h.root
  home := by
    obtain hreaches | hmissing := h.home
    · exact .inl hreaches
    · exact .inr ⟨rfl, hmissing⟩
  folders name houtward := by
    rw [h.empty name houtward]
    rfl
  kept name a hstored := by cases hstored

theorem Vacant.shelves (h : s.Vacant) : Shelves s.index s .empty := (h.stocks _).shelves

/-- Nothing is stored in the home of an index that has been made for it in an empty storage. -/
theorem vacant_of_makeFolders {made : IndexStorage}
    (hmade : Storage.makeFolders .empty s.index.home = (made, none)) (hstorage : s.storage = made)
    (hdirect : s.index.home.Direct) : s.Vacant := by
  have hroot : (Storage.empty : IndexStorage).isFolder (s.index.home.upTo 0).destination := rfl
  obtain ⟨hreaches, honly⟩ := Storage.reaches_of_makeFolders hroot hmade
  subst hstorage
  refine ⟨hdirect, hreaches.folders 0 (Nat.zero_le _), .inl hreaches, fun name houtward => ?_⟩
  obtain hsame | ⟨⟨n, hn, hp⟩, -, -⟩ := honly (Path.inside _ name)
  · exact hsame.trans (Storage.node?_empty houtward)
  · exact absurd (hp ▸ Path.covers_self _) (hdirect n hn name)

/-- An index that has just been made has nothing stored, if its folder's path does not lead back
and is not too long. -/
theorem vacant_makeIndex {o : Settings} (h : o.makeIndex .empty = .ok (s.index, s.storage))
    (hfolder : ∀ name ∈ o.folder.names, name ≠ Path.upward)
    (hopen : ∀ e, s.storage.contains s.index.home ≠ .error e) : s.Vacant := by
  obtain ⟨index, storage⟩ := s
  have hmemory : Storage.IsName "selfindex".toText := ⟨rfl, by decide⟩
  have hdatabase : Storage.IsName "rocksdb".toText := ⟨rfl, by decide⟩
  unfold Settings.makeIndex at h
  rw [bind_eq_ok_iff] at h
  obtain ⟨store, -, h⟩ := h
  rw [bind_eq_ok_iff] at h
  obtain ⟨analyzer, -, h⟩ := h
  cases store with
  | memory =>
    simp only at h
    split at h
    · next made hmade =>
      cases h
      exact vacant_of_makeFolders hmade rfl (Path.direct_child hfolder hmemory)
    · cases h
  | database =>
    simp only at h
    cases h
    have houtward : (o.folder.child "rocksdb".toText).destination.isOutward = false := by
      rw [Path.destination_child hdatabase]
      exact Path.isOutward_inside hdatabase.2 _
    exact ⟨Path.direct_child hfolder hdatabase, rfl,
      .inr ⟨⟨_, rfl⟩, Storage.contains_empty houtward hopen⟩,
      fun _ houtward => Storage.node?_empty houtward⟩

end Session

end Concordance
