import Concordance.Proofs.CachedIndex
import Concordance.Proofs.Interchange
import Concordance.Proofs.MadeFolders
import Concordance.Proofs.Stock

/-!
# Room for an index

An index is created where nothing but an old index is in the way of its folder: what is
there is removed, the folder is made, and all its files are written.
-/
namespace Concordance

namespace Storage

variable {κ : Type} {s s' : Storage κ} {folder home place : Path} {name : Text}
  {names : List Text}

/-- Whatever is there lies in a folder. -/
def Rooted (s : Storage κ) : Prop :=
  ∀ place name, s.isFolder place = false → s.node? (place.inside name) = none

theorem rooted_empty : (empty : Storage κ).Rooted := by
  intro place name hplace
  have houtward : place.isOutward = false := by
    rw [isFolder] at hplace
    cases h : place.isOutward with
    | true =>
      rw [node?, h] at hplace
      cases hplace
    | false => rfl
  refine node?_empty (Path.Covers.isOutward (Path.covers_inside place name) houtward)

theorem inside_ne_self (place : Path) (name : Text) : place ≠ place.inside name := by
  intro h
  have hlength := congrArg (fun p => p.names.length) h
  simp [Path.inside] at hlength

/-- Something new in a folder. -/
theorem Rooted.put (h : s.Rooted) (hplace : s.isFolder place = true)
    (hnone : s.node? (place.inside name) = none) (node : Node κ) :
    (s.put (place.inside name) node).Rooted := by
  intro q other hq
  have hstill : (s.put (place.inside name) node).isFolder place = true := by
    rwa [isFolder_congr]
    rw [node?_put, if_neg (inside_ne_self place name)]
  rw [node?_put]
  split
  · next heq =>
    rw [(Path.inside_inj heq).1, hstill] at hq
    cases hq
  · refine h q other ?_
    by_cases hnew : q = place.inside name
    · rw [isFolder, hnew, hnone]
    · have hput : (s.put (place.inside name) node).isFolder q = s.isFolder q :=
        isFolder_congr (by rw [node?_put, if_neg hnew])
      rwa [← hput]

theorem putFiles_eq_none {files : List (Text × κ)}
    (h : ∀ f ∈ files, s.isFolder (place.inside f.1) = false) :
    (s.putFiles place files).2 = none := by
  induction files generalizing s with
  | nil => rfl
  | cons file rest ih =>
    obtain ⟨name, content⟩ := file
    obtain ⟨hfile, hrest⟩ := List.forall_mem_cons.mp h
    have hfirst : ¬s.isFolder (place.inside name) = true := Bool.not_eq_true _ ▸ hfile
    simp only [putFiles]
    split
    · next hfolder => exact absurd hfolder hfirst
    · refine ih fun f hf => ?_
      have hput := s.isFolder_put_file (place.inside name) content (place.inside f.1)
      rw [hrest f hf, Bool.and_false] at hput
      exact hput

/-- All files of some names can be written into a folder. -/
def Writable (s : Storage κ) (folder : Path) (names : List Text) : Prop :=
  ∀ files : List (Text × κ), (∀ f ∈ files, f.1 ∈ names) → (s.writeIn folder files).2 = none

/-- A folder can be made in place of what is there, and files written into it. -/
def Renewable (s : Storage κ) (path : Path) (names : List Text) : Prop :=
  ∃ cleared made, s.Clears path cleared ∧ cleared.makeFolders path = (made, none) ∧
    made.Writable path names

/-- A folder that is made where nothing is takes all files. -/
theorem exists_writable (hreaches : s.Reaches home) (hname : home.Takes name)
    (hnone : s.node? (home.destination.inside name) = none)
    (hinside : ∀ file, s.node? ((home.destination.inside name).inside file) = none)
    (hfits : ∀ file ∈ names, (home.child name).fits file = true) :
    ∃ made, s.makeFolders (home.child name) = (made, none) ∧
      made.Writable (home.child name) names := by
  have hmade : s.makeFolders (home.child name) =
      (s.put (home.destination.inside name) .folder, none) := by
    rw [makeFolders_child hreaches hname, makeFolder, hreaches.locate_child hname]
    simp only [hnone]
  refine ⟨_, hmade, fun files hfiles => ?_⟩
  have hreaches' := hreaches.makeFolders (home.child name)
  rw [hmade] at hreaches'
  refine writeIn_eq_none_iff.mpr ⟨_, hreaches'.locate_child hname, fun f hf => ?_, ?_⟩
  · exact hfits f.1 (hfiles f hf)
  · refine putFiles_eq_none fun f _ => ?_
    rw [isFolder, node?_put, if_neg (inside_ne_self _ _).symm, hinside]

/-- A folder can be renewed where no file lies in its place. -/
theorem Rooted.renewable (h : s.Rooted) (hreaches : s.Reaches home) (hdirect : home.Direct)
    (hname : home.Takes name)
    (hfree : ∀ content, s.node? (home.destination.inside name) ≠ some (.file content))
    (hfits : ∀ file ∈ names, (home.child name).fits file = true) :
    s.Renewable (home.child name) names := by
  have hcontains := hreaches.contains_child hname
  cases hnode : s.node? (home.destination.inside name) with
  | none =>
    rw [hnode] at hcontains
    have hinside := fun file => h (home.destination.inside name) file (by rw [isFolder, hnode])
    obtain ⟨made, hmade, hwritable⟩ := exists_writable hreaches hname hnode hinside hfits
    exact ⟨s, made, .inl ⟨hcontains, rfl⟩, hmade, hwritable⟩
  | some node =>
    cases node with
    | file content => exact absurd hnode (hfree content)
    | folder =>
      rw [hnode] at hcontains
      obtain ⟨cleared, hremoved, hreaches', hnone, -⟩ :=
        hreaches.remove hdirect hname (isFolder_iff.mpr hnode)
      have hdestination := Path.destination_child hname.1.1 home
      have houtward : (home.child name).destination.isOutward = false :=
        hdestination ▸ Path.isOutward_inside hname.1.1.2 _
      have hinside (file : Text) :
          cleared.node? ((home.destination.inside name).inside file) = none := by
        rw [node?_remove houtward hremoved, if_pos]
        rw [hdestination]
        exact Path.covers_inside _ _
      obtain ⟨made, hmade, hwritable⟩ := exists_writable hreaches' hname hnone hinside hfits
      exact ⟨cleared, made, .inr ⟨hcontains, hremoved⟩, hmade, hwritable⟩

/-- Whether a name follows decides only how the making of a folder fails. -/
theorem makeFolder_of_last {last : Bool} (h : s.makeFolder last place = (s', none)) (last' : Bool) :
    s.makeFolder last' place = (s', none) := by
  rw [makeFolder] at h ⊢
  cases hplace : s.locate place with
  | error e =>
    rw [hplace] at h
    cases h
  | ok p =>
    rw [hplace] at h
    simp only at h ⊢
    cases hnode : s.node? p with
    | none =>
      rw [hnode] at h
      exact h
    | some node =>
      rw [hnode] at h
      cases node with
      | file content => cases h
      | folder => exact h

theorem makeEach_append {before after : List Path} (h : s.makeEach before = (s', none)) :
    s.makeEach (before ++ after) = s'.makeEach after := by
  induction before generalizing s with
  | nil =>
    cases h
    rfl
  | cons q rest ih =>
    rw [makeEach] at h
    split at h
    · next made hmade =>
      rw [List.cons_append, makeEach, makeFolder_of_last hmade]
      exact ih h
    · cases h

/-- A folder in a folder is made by making the one and then the other. -/
theorem makeFolders_child_of_made (hroot : s.isFolder (home.upTo 0).destination = true)
    (hname : home.Takes name) (hmade : s.makeFolders home = (s', none)) :
    s.makeFolders (home.child name) = s'.makeFolders (home.child name) := by
  have hreaches := (reaches_of_makeFolders hroot hmade).1
  obtain ⟨hforbidden, hlong, -⟩ := locate_eq_ok_iff.mp (hreaches.locate_child hname)
  have heach : s.makeEach home.ancestry = (s', none) := by
    unfold makeFolders at hmade
    split at hmade
    · cases hmade
    · split at hmade
      · cases hmade
      · exact hmade
  rw [makeFolders, makeFolders, hforbidden, hlong]
  simp only [Bool.false_eq_true, if_false]
  rw [Path.child_eq_inside hname.1.1, Path.ancestry_inside, makeEach_append heach,
    makeEach_append_of_reaches hreaches.ancestry]

/-- The folder around the folders of a home is there, or is made. -/
theorem Rooted.exists_home (h : s.Rooted) (hreaches : s.Reaches folder)
    (hname : folder.Takes name)
    (hfree : ∀ content, s.node? (folder.destination.inside name) ≠ some (.file content)) :
    ∃ s', s.makeFolders (folder.child name) = (s', none) ∧ s'.Reaches (folder.child name) ∧
      s'.Rooted ∧ (s' = s ∨ s.node? (folder.destination.inside name) = none ∧
        s' = s.put (folder.destination.inside name) .folder) := by
  have hroot : s.isFolder ((folder.child name).upTo 0).destination = true := by
    rw [Path.child_eq_inside hname.1.1, Path.upTo_inside (Nat.zero_le _)]
    exact hreaches.folders 0 (Nat.zero_le _)
  have hmade := makeFolders_child hreaches hname
  rw [makeFolder, hreaches.locate_child hname] at hmade
  simp only at hmade
  cases hnode : s.node? (folder.destination.inside name) with
  | none =>
    rw [hnode] at hmade
    exact ⟨_, hmade, (reaches_of_makeFolders hroot hmade).1, h.put hreaches.isFolder hnode _,
      .inr ⟨rfl, rfl⟩⟩
  | some node =>
    cases node with
    | file content => exact absurd hnode (hfree content)
    | folder =>
      rw [hnode] at hmade
      exact ⟨s, hmade, (reaches_of_makeFolders hroot hmade).1, h, .inl rfl⟩

/-- A folder in a home that is not there is made with the home. -/
theorem Rooted.renewable_missing (h : s.Rooted) (hreaches : s.Reaches folder) {part : Text}
    (hpart : folder.Takes part) (hnone : s.node? (folder.destination.inside part) = none)
    (hname : (folder.child part).Takes name)
    (hfits : ∀ file ∈ names, ((folder.child part).child name).fits file = true) :
    s.Renewable ((folder.child part).child name) names := by
  have hdestination := Path.destination_child hpart.1.1 folder
  obtain ⟨s', hmade, hreaches', hrooted, hs'⟩ := h.exists_home hreaches hpart (by simp [hnone])
  have hempty : s.node? ((folder.child part).destination.inside name) = none := by
    rw [hdestination]
    exact h _ _ (by rw [isFolder, hnone])
  have hempty' : s'.node? ((folder.child part).destination.inside name) = none := by
    obtain rfl | ⟨-, rfl⟩ := hs'
    · exact hempty
    · rw [node?_put, hdestination, if_neg (inside_ne_self _ name).symm, ← hdestination, hempty]
  obtain ⟨made, hchild, hwritable⟩ := exists_writable hreaches' hname hempty'
    (fun file => hrooted _ file (by rw [isFolder, hempty'])) hfits
  have hroot : s.isFolder ((folder.child part).upTo 0).destination = true := by
    rw [Path.child_eq_inside hpart.1.1, Path.upTo_inside (Nat.zero_le _)]
    exact hreaches.folders 0 (Nat.zero_le _)
  have hmissing : s.contains (folder.child part) = .ok false := by
    rw [hreaches.contains_child hpart, hnone]
    rfl
  rw [← makeFolders_child_of_made hroot hname hmade] at hchild
  exact ⟨s, made, .inl ⟨contains_child_of_missing hmissing hname hempty, rfl⟩, hchild, hwritable⟩

end Storage

section Creation

variable {s : IndexStorage} {name : Text} {entries : List Json}

theorem MemoryIndex.create_of_renewable {x : MemoryIndex}
    (h : s.Renewable (x.home.child name) Tables.fileNames)
    (hformat : ∃ j, x.format = .value j ∧ j.isWritable = true)
    (hentries : Ingestion.Legible entries) (now : Text) :
    (x.create s now (.str name) entries).failure = none := by
  obtain ⟨cleared, made, hclears, hmade, hwritable⟩ := h
  obtain ⟨j, hj, hwritten⟩ := hformat
  have hbuilt : (MemoryIndex.build { x with name := .str name } cleared now (x.home.child name)
      entries).failure = none := by
    refine (build_failure _ cleared now _ entries).mpr
      ⟨(follows _).stopped_eq_none .empty hentries, takes_of_legible _ _ hentries, ?_⟩
    simp only [save, hmade, saveIn, hj, hwritten, takes_empty, Bool.not_true, Bool.false_eq_true,
      if_false]
    exact hwritable _ fun f hf => Tables.mem_fileNames hf
  simp only [create, Json.text, replace]
  obtain ⟨hcontains, rfl⟩ | ⟨hcontains, hremoved⟩ := hclears
  · simp only [hcontains, hbuilt]
  · simp only [hcontains, hremoved, Outcome.report, hbuilt]

theorem DatabaseIndex.create_of_renewable {x : DatabaseIndex}
    (h : s.Renewable (x.home.child name) [databaseFile])
    (hentries : Ingestion.Legible entries) :
    (x.create s (.str name) entries).failure = none := by
  obtain ⟨cleared, made, hclears, hmade, hwritable⟩ := h
  have hbuilt : ((x.close.towards name).build cleared name (x.home.child name) entries).failure =
      none := by
    have hopened := hwritable [(databaseFile, .database .empty)] (by simp)
    rw [build, hmade]
    simp only
    cases hwritten : made.writeIn (x.home.child name) [(databaseFile, .database .empty)] with
    | mk written failure =>
      rw [hwritten] at hopened
      cases hopened
      simp only [fill_failure]
      exact (follows _).stopped_eq_none .empty hentries
  simp only [create, Json.text, replace, close]
  obtain ⟨hcontains, rfl⟩ | ⟨hcontains, hremoved⟩ := hclears
  · simp only [hcontains]
    exact hbuilt
  · simp only [hcontains, hremoved, Outcome.report]
    exact hbuilt

end Creation

namespace Backend

variable {p : Backend} {folder : Path} {s : IndexStorage} {name : Text} {entries : List Json}

/-- The names of the files in which an index is stored. -/
def fileNames : Backend → List Text
  | memory => Tables.fileNames
  | database => [DatabaseIndex.databaseFile]

/-- Nothing but an old index is in the way of an index of that name. -/
structure HasRoom (p : Backend) (folder : Path) (name : Text) (s : IndexStorage) : Prop where
  rooted : s.Rooted
  home : ∀ content, s.node? (p.home folder).destination ≠ some (.file content)
  free : ∀ content, s.node? ((p.home folder).destination.inside name) ≠ some (.file content)
  fits : ∀ file ∈ p.fileNames, ((p.home folder).child name).fits file = true

/-- A new index can create one of any pairs whose ids can be shown where its folder can be
renewed. -/
theorem create_newIndex [Language] (h : s.Renewable ((p.home folder).child name) p.fileNames)
    (hentries : Ingestion.Legible entries) (now : Text) :
    ((p.newIndex folder).create s now (.str name) entries).failure = none := by
  cases p with
  | memory => exact MemoryIndex.create_of_renewable h ⟨savedFormat, rfl, rfl⟩ hentries now
  | database => exact DatabaseIndex.create_of_renewable h hentries

theorem takes_homeName (hname : (p.home folder).Takes name) : folder.Takes p.homeName :=
  Path.takes_of_fits p.isFileName_homeName hname.1.1 hname.2

/-- Where there is room for an index, the storage can be prepared for it, and its folder can be
renewed then. -/
theorem HasRoom.prepare (h : p.HasRoom folder name s) (hfolder : s.Reaches folder)
    (hdirect : (p.home folder).Direct) (hname : (p.home folder).Takes name) :
    ∃ s', p.prepare folder s = .ok s' ∧
      s'.Renewable ((p.home folder).child name) p.fileNames := by
  have htakes : folder.Takes p.homeName := takes_homeName hname
  have hdestination : (p.home folder).destination = folder.destination.inside p.homeName :=
    Path.destination_child htakes.1.1 folder
  have hfree (content : Content) : s.node? (folder.destination.inside p.homeName) ≠
      some (.file content) := hdestination ▸ h.home content
  obtain ⟨s', hmade, hreaches, hrooted, hs'⟩ := h.rooted.exists_home hfolder htakes hfree
  have hfree' (content : Content) :
      s'.node? ((p.home folder).destination.inside name) ≠ some (.file content) := by
    obtain rfl | ⟨-, rfl⟩ := hs'
    · exact h.free content
    · rw [Storage.node?_put, hdestination, if_neg (Storage.inside_ne_self _ name).symm,
        ← hdestination]
      exact h.free content
  have hrenewable : s'.Renewable ((p.home folder).child name) p.fileNames :=
    hrooted.renewable hreaches hdirect hname hfree' h.fits
  -- An index in memory is made with its home, and a database makes its home with its own folder.
  cases p with
  | memory =>
    have hmade : s.makeFolders (memory.home folder) = (s', none) := hmade
    exact ⟨s', by rw [Backend.prepare, hmade], hrenewable⟩
  | database =>
    refine ⟨s, rfl, ?_⟩
    obtain rfl | ⟨hnone, -⟩ := hs'
    · exact hrenewable
    · exact h.rooted.renewable_missing hfolder htakes hnone hname h.fits

end Backend

end Concordance
