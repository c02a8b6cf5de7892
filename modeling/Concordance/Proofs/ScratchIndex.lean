import Concordance.Proofs.Traces

/-!
# An index that is made and deleted again

Where no index is stored under a name and there is room for one, an index that is created
under it and deleted again leaves nothing but the folder around it. Where something else is
in the way, nothing is created and nothing changes.
-/
namespace Concordance

open Storage (OnlyMakes Grounded)

namespace Storage

variable {κ : Type} {s s' : Storage κ} {place p home path : Path} {name : Text}

/-- Where nothing is, nothing lies inside either. -/
theorem Rooted.none_of_covers (h : s.Rooted) (hnone : s.node? place = none)
    (hcovers : place.Covers p) : s.node? p = none := by
  obtain ⟨habsolute, rest, hrest⟩ := hcovers
  have hinside (rest : List Text) : s.node? ⟨place.absolute, place.names ++ rest⟩ = none := by
    induction rest using List.reverseRecOn with
    | nil => rwa [List.append_nil]
    | append_singleton rest last ih =>
      rw [← List.append_assoc]
      exact h _ last (by rw [isFolder, ih])
  have hp : p = ⟨place.absolute, place.names ++ rest⟩ := by
    rw [habsolute, hrest]
  rw [hp, hinside]

/-- Where nothing is, nothing is emptied. -/
theorem Emptied.of_missing (h : s.Emptied path s') (hplace : s.locate path = .ok place)
    (hnone : s.node? place = none) : s' = s := by
  obtain rfl | hremoved := h
  · rfl
  · simp [remove, hplace, hnone] at hremoved

/-- A folder in a folder that is there or not is made with it, and nothing else is. -/
theorem onlyMakes_makeFolders_inside {part : Text} (hs : s.Reaches home) (hpart : IsName part)
    (hname : IsName name) :
    OnlyMakes s (s.makeFolders ((home.child part).child name)).1 fun p =>
      p = (home.child part).destination ∨ p = ((home.child part).child name).destination := by
  have hlengthPart := Path.length_child hpart home
  have hlength := Path.length_child hname (home.child part)
  have hreaches : s.Reaches (((home.child part).child name).upTo home.names.length) := by
    rwa [Path.upTo_child hname (by omega), Path.upTo_child hpart (Nat.le_refl _), Path.upTo_length]
  refine (onlyMakes_makeFolders_below hreaches (by omega)).weaken ?_
  rintro p ⟨k, hk, hk', rfl⟩
  obtain rfl | rfl : k = (home.child part).names.length ∨
      k = ((home.child part).child name).names.length := by omega
  · rw [Path.upTo_child hname (Nat.le_refl _), Path.upTo_length]
    exact .inl rfl
  · rw [Path.upTo_length]
    exact .inr rfl

/-- The way to a folder that is not there does not lead through the place of the folder: it leads
through folders that are there, and through the folder around. -/
theorem Rooted.not_covers_way {part : Text} (h : s.Rooted) (hhome : s.Reaches home)
    (hpart : IsName part) (hname : IsName name)
    (hnone : s.node? ((home.child part).child name).destination = none) :
    ∀ k < ((home.child part).child name).names.length,
      ¬((home.child part).child name).destination.Covers
        (((home.child part).child name).upTo k).destination := by
  intro k hk hcovers
  have hlength := Path.length_child hpart home
  rw [Path.length_child hname] at hk
  obtain hk | rfl : k ≤ home.names.length ∨ k = (home.child part).names.length := by omega
  · have hmissing := h.none_of_covers hnone hcovers
    rw [Path.upTo_child hname (by omega), Path.upTo_child hpart hk,
      isFolder_iff.mp (hhome.folders k hk)] at hmissing
    cases hmissing
  · rw [Path.upTo_child hname (Nat.le_refl _), Path.upTo_length,
      Path.destination_child hname] at hcovers
    have hle := hcovers.2.length_le
    rw [Path.inside, List.length_append, List.length_singleton] at hle
    omega

/-- What has been done where a folder has been made and files have been written in it. -/
structure Filled (path : Path) (s made s' : Storage κ) : Prop where
  making : s.makeFolders path = (made, none)
  folders : SameFolders made s'
  elsewhere : ∀ q, ¬path.destination.Covers q → s'.node? q = made.node? q

namespace Filled

variable {made : Storage κ} {part : Text}

theorem of_made (h : s.makeFolders path = (made, none)) : Filled path s made made :=
  ⟨h, fun _ => rfl, fun _ _ => rfl⟩

theorem writeIn (h : Filled path s made s') (files : List (Text × κ)) :
    Filled path s made (s'.writeIn path files).1 where
  making := h.making
  folders p := (sameFolders_writeIn s' path files p).trans (h.folders p)
  elsewhere q hq := (node?_writeIn hq).trans (h.elsewhere q hq)

theorem reaches (h : Filled path s made s') (hs : s.Grounded) : s'.Reaches path :=
  (hs.reaches_of_made h.making).of_way fun _ _ => h.folders _

/-- A folder that was not there is removed again, and then nothing is new but the folder around
it. -/
theorem exists_remove (h : Filled ((home.child part).child name) s made s') (hs : s.Grounded)
    (hhome : s.Reaches home) (hpart : IsName part) (hname : IsName name)
    (hnone : s.node? ((home.child part).child name).destination = none) :
    ∃ left, s'.remove ((home.child part).child name) = (left, none) ∧
      OnlyMakes s left (· = (home.child part).destination) := by
  have hreaches := h.reaches hs
  have hdestination := Path.destination_child hname (home.child part)
  have houtward : ((home.child part).child name).destination.isOutward = false :=
    hdestination ▸ Path.isOutward_inside hname.2 _
  obtain ⟨left, hremoved⟩ := Storage.exists_remove houtward
    (hs.rooted.not_covers_way hhome hpart hname hnone) hreaches.located hreaches.isFolder
  refine ⟨left, hremoved, fun p => ?_⟩
  rw [node?_remove houtward hremoved]
  by_cases hcovers : ((home.child part).child name).destination.Covers p
  · rw [if_pos hcovers, hs.rooted.none_of_covers hnone hcovers]
    exact .inl rfl
  · rw [if_neg hcovers, h.elsewhere p hcovers]
    have honly := onlyMakes_makeFolders_inside hhome hpart hname p
    rw [h.making] at honly
    refine honly.imp id fun ⟨hp, hnew⟩ => ⟨hp.resolve_right ?_, hnew⟩
    rintro rfl
    exact hcovers (Path.covers_self _)

end Filled

/-- The path of a folder in a folder that is there or not. -/
theorem Reaches.located_child (h : s.Reaches home) {part : Text} (hpart : home.Takes part) :
    s.locate (home.child part) = .ok (home.child part).destination := by
  rw [Path.destination_child hpart.1.1]
  exact h.locate_child hpart

theorem Reaches.locate_grandchild (h : s.Reaches home) {part : Text} (hpart : home.Takes part)
    (hname : (home.child part).Takes name) :
    s.locate ((home.child part).child name) = .ok ((home.child part).destination.inside name) :=
  locate_child_of_folder hname.1 (h.located_child hpart) hname.2

/-- Something lies in the way of a folder: it can neither be removed nor does it let the folder be
made. -/
def Blocked (s : Storage κ) (path : Path) : Prop :=
  (∃ e, s.contains path = .ok true ∧ s.remove path = (s, some e)) ∨
    ∃ e, s.contains path = .ok false ∧ s.makeFolders path = (s, some e)

/-- No folder is made where the folder around it would be is a file. -/
theorem makeFolders_of_file {part : Text} {content : κ} (hhome : s.Reaches home)
    (hpart : home.Takes part) (hname : (home.child part).Takes name)
    (hfile : s.node? (home.child part).destination = some (.file content)) :
    s.makeFolders ((home.child part).child name) = (s, some .notAFolder) := by
  obtain ⟨hforbidden, hlong, -⟩ := locate_eq_ok_iff.mp (hhome.locate_grandchild hpart hname)
  have hplace := hhome.located_child hpart
  rw [makeFolders, hforbidden, hlong]
  simp only [Bool.false_eq_true, if_false]
  rw [Path.child_eq_inside hname.1.1, Path.ancestry_inside, Path.child_eq_inside hpart.1.1,
    Path.ancestry_inside, List.append_assoc, makeEach_append_of_reaches hhome.ancestry,
    ← Path.child_eq_inside hpart.1.1, List.singleton_append]
  refine makeEach_cons_of_failure ?_
  simp only [makeFolder, hplace, hfile]
  rfl

/-- Where a folder is not there, a file is in its way or a new folder can be made and filled. -/
theorem Grounded.blocked_or_renewable (h : s.Grounded) (hhome : s.Reaches home) {part : Text}
    {names : List Text} (hpart : home.Takes part) (hname : (home.child part).Takes name)
    (hnew : s.isFolder ((home.child part).destination.inside name) = false)
    (hfits : ∀ file ∈ names, ((home.child part).child name).fits file = true) :
    s.Blocked ((home.child part).child name) ∨
      s.node? ((home.child part).destination.inside name) = none ∧
        s.Renewable ((home.child part).child name) names := by
  have hlocated := hhome.locate_grandchild hpart hname
  have hcontains := contains_of_locate hlocated
  cases hnode : s.node? ((home.child part).destination.inside name) with
  | some node =>
    rw [hnode] at hcontains
    cases node with
    | folder => simp [isFolder, hnode] at hnew
    | file content =>
      exact .inl (.inl ⟨.notAFolder, hcontains, by simp only [Storage.remove, hlocated, hnode]⟩)
  | none =>
    rw [hnode] at hcontains
    cases haround : s.node? (home.child part).destination with
    | none =>
      rw [Path.destination_child hpart.1.1] at haround
      exact .inr ⟨rfl, h.rooted.renewable_missing hhome hpart haround hname hfits⟩
    | some node =>
      cases node with
      | folder =>
        have hreaches : s.Reaches (home.child part) := by
          rw [Path.destination_child hpart.1.1] at haround
          exact hhome.child hpart (isFolder_iff.mpr haround)
        have hinside := fun file => h.rooted _ file (by rw [isFolder, hnode])
        obtain ⟨made, hmade, hwritable⟩ := exists_writable hreaches hname hnode hinside hfits
        exact .inr ⟨rfl, s, made, .inl ⟨hcontains, rfl⟩, hmade, hwritable⟩
      | file content =>
        exact .inl (.inr ⟨.notAFolder, hcontains, makeFolders_of_file hhome hpart hname haround⟩)

end Storage

namespace Index

variable {x : Index} {s : IndexStorage} {now name : Text} {entries : List Json}

/-- Nothing is created, and nothing changes, where something is in the way. -/
theorem create_of_blocked (h : s.Blocked (x.home.child name)) :
    (x.create s now (.str name) entries).failure ≠ none ∧
      (x.create s now (.str name) entries).storage = s := by
  obtain ⟨e, hcontains, hremoved⟩ | ⟨e, hcontains, hmade⟩ := h
  · cases x with
    | memory x =>
      simp only [home] at hcontains hremoved
      simp [create, MemoryIndex.create, Json.text, MemoryIndex.replace, hcontains, hremoved,
        Outcome.map]
    | database x =>
      simp only [home] at hcontains hremoved
      simp [create, DatabaseIndex.create, Json.text, DatabaseIndex.replace, DatabaseIndex.close,
        hcontains, hremoved, Outcome.map]
  · cases x with
    | memory x =>
      simp only [home] at hcontains hmade
      simp only [create, MemoryIndex.create, Json.text, MemoryIndex.replace, hcontains,
        Outcome.map, MemoryIndex.build]
      split <;> simp [MemoryIndex.save, hmade]
    | database x =>
      simp only [home] at hcontains hmade
      simp [create, DatabaseIndex.create, Json.text, DatabaseIndex.replace, DatabaseIndex.close,
        hcontains, DatabaseIndex.build, hmade, Outcome.map]

end Index

section Creation

variable {s : IndexStorage} {now name : Text} {entries : List Json}

/-- A creation that succeeds has made the folder of the index and filled it. -/
theorem MemoryIndex.filled_create {x : MemoryIndex}
    (h : (x.create s now (.str name) entries).failure = none) :
    ∃ cleared made, s.Emptied (x.home.child name) cleared ∧
      Storage.Filled (x.home.child name) cleared made
        (x.create s now (.str name) entries).storage := by
  obtain ⟨-, -, -, -, cleared, hcleared, hsaved⟩ := saved_create h
  obtain ⟨made, format, hmade, -, -, hwritten⟩ := save_eq_none hsaved
  have hstored := congrArg Prod.fst hwritten
  simp only at hstored
  rw [← hstored]
  exact ⟨cleared, made, hcleared, (Storage.Filled.of_made hmade).writeIn _⟩

theorem DatabaseIndex.filled_create {x : DatabaseIndex}
    (h : (x.create s (.str name) entries).failure = none) :
    ∃ cleared made, s.Emptied (x.home.child name) cleared ∧
      Storage.Filled (x.home.child name) cleared made (x.create s (.str name) entries).storage := by
  obtain ⟨t, cleared, opened, hname, hcleared, ⟨made, hmade, hwritten⟩, hfills⟩ := exists_fill h
  cases hname
  obtain ⟨log, hlog⟩ := hfills entries
  have hopened := congrArg Prod.fst hwritten
  simp only at hopened
  refine ⟨cleared, made, hcleared, ?_⟩
  rw [hlog, fill, ← hopened]
  simp only
  split <;> exact ((Storage.Filled.of_made hmade).writeIn _).writeIn _

theorem Index.filled_create {x : Index}
    (h : (x.create s now (.str name) entries).failure = none) :
    ∃ cleared made, s.Emptied (x.home.child name) cleared ∧
      Storage.Filled (x.home.child name) cleared made
        (x.create s now (.str name) entries).storage := by
  cases x with
  | memory x => exact MemoryIndex.filled_create h
  | database x => exact DatabaseIndex.filled_create h

end Creation

namespace Backend

variable {p : Backend} {folder : Path} {x : Index} {s : IndexStorage} {name : Text}
  {entries : List Json}

theorem Makes.create_of_renewable [Language] (h : p.Makes folder x)
    (hs : s.Renewable (x.home.child name) p.fileNames)
    (hentries : Ingestion.Legible entries) (now : Text) :
    (x.create s now (.str name) entries).failure = none := by
  have hkind := h.same.kind
  cases p with
  | memory =>
    cases hkind with
    | memory _ m => exact MemoryIndex.create_of_renewable hs (h.format m rfl) hentries now
  | database =>
    cases hkind with
    | database _ d => exact DatabaseIndex.create_of_renewable hs hentries

/-- There is a file among those of an index, and its name is just a name. -/
theorem exists_fileName (p : Backend) : ∃ file ∈ p.fileNames, Storage.IsName file := by
  cases p with
  | memory => exact ⟨Tables.metadataFile, by decide, rfl, by decide⟩
  | database => exact ⟨DatabaseIndex.databaseFile, by decide, rfl, by decide⟩

/-- A name is taken by the home of indexes if their files fit into a folder of that name. -/
theorem takes_of_fits (hname : Storage.IsFileName name)
    (hfits : ∀ file ∈ p.fileNames, ((p.home folder).child name).fits file = true) :
    (p.home folder).Takes name := by
  obtain ⟨file, hfile, hisName⟩ := p.exists_fileName
  exact Path.takes_of_fits hname hisName (hfits file hfile)

/-- An index of pairs under a name that is new is not created and nothing changes, or it is created
and deleted again, and then nothing is new but the folder around it. -/
theorem Makes.create_delete [Language] (h : p.Makes folder x) (hs : s.Grounded) (hfolder :
    s.Reaches folder)
    (hname : Storage.IsFileName name)
    (hnew : s.isFolder ((p.home folder).destination.inside name) = false)
    (hfits : ∀ file ∈ p.fileNames, ((p.home folder).child name).fits file = true)
    (hentries : Ingestion.Legible entries) (now : Text) :
    let created := x.create s now (.str name) entries
    created.failure ≠ none ∧ created.storage = s ∨
      created.failure = none ∧
        OnlyMakes s (created.index.delete created.storage name).storage (IsHome folder) := by
  intro created
  have htakes : (p.home folder).Takes name := takes_of_fits hname hfits
  obtain hblocked | ⟨hnone, hrenewable⟩ :=
    hs.blocked_or_renewable hfolder (takes_homeName htakes) htakes hnew hfits
  · exact .inl (Index.create_of_blocked (h.home ▸ hblocked))
  · have hcreated : created.failure = none :=
      h.create_of_renewable (h.home ▸ hrenewable) hentries now
    refine .inr ⟨hcreated, ?_⟩
    have hdestination := Path.destination_child hname.1 (p.home folder)
    obtain ⟨cleared, made, hemptied, hfilled⟩ := Index.filled_create hcreated
    rw [h.home] at hemptied hfilled
    cases hemptied.of_missing (hfolder.locate_grandchild (takes_homeName htakes) htakes) hnone
    obtain ⟨left, hremoved, honly⟩ :
        ∃ left, created.storage.remove ((p.home folder).child name) = (left, none) ∧
          OnlyMakes s left (· = (p.home folder).destination) :=
      hfilled.exists_remove hs hfolder p.isFileName_homeName.1 hname.1 (hdestination ▸ hnone)
    have hhome : created.index.home = p.home folder := (h.create s now (.str name) entries).home
    have hthere : created.storage.contains (created.index.home.child name) = .ok true := by
      rw [hhome]
      exact (hfilled.reaches hs).contains
    rw [(Index.delete_of_present hthere).1, hhome, hremoved]
    exact honly.weaken fun place hplace => ⟨p, hplace⟩

end Backend

end Concordance
