import Concordance.Storage
import Concordance.Proofs.Except
import Concordance.Proofs.Table

/-!
# Files in folders

Whether the writing of files into a folder succeeds depends on their names and on where
folders are, and not on what is written. Files lie elsewhere as before; making and
removing folders brings no file up.
-/
namespace Concordance

namespace Path

/-- What a name leads to in a followed folder. -/
def inside (place : Path) (name : Text) : Path := ⟨place.absolute, place.names ++ [name]⟩

theorem inside_inj {place place' : Path} {name name' : Text}
    (h : place.inside name = place'.inside name') : place = place' ∧ name = name' := by
  obtain ⟨absolute, names⟩ := place
  obtain ⟨absolute', names'⟩ := place'
  simp only [inside, mk.injEq] at h
  obtain ⟨habsolute, hnames⟩ := h
  obtain ⟨hinit, hlast⟩ := List.append_inj' hnames rfl
  rw [habsolute, hinit]
  exact ⟨rfl, (List.cons.inj hlast).1⟩

end Path

namespace Storage

variable {κ : Type} {s s' : Storage κ}

theorem node?_put (s : Storage κ) (place : Path) (node : Node κ) (p : Path) :
    (s.put place node).node? p = if p = place then some node else s.node? p := by
  rw [node?, put, Table.get?_set]
  by_cases hp : p = place
  · rw [if_pos hp, if_pos hp]
  · rw [if_neg hp, if_neg hp]
    rfl

theorem node?_empty_ne_file (p : Path) (content : κ) :
    (empty : Storage κ).node? p ≠ some (.file content) := by
  rw [node?, empty, Table.get?_empty]
  simp only
  split <;> simp

theorem isFolder_put_file (s : Storage κ) (place : Path) (content : κ) (p : Path) :
    (s.put place (.file content)).isFolder p = (!decide (p = place) && s.isFolder p) := by
  rw [isFolder, node?_put, isFolder]
  by_cases hp : p = place <;> simp [hp]

/-- Files of the same names are written with the same success where folders are the same. -/
theorem putFiles_failure {place : Path} {files files' : List (Text × κ)}
    (hnames : files.map Prod.fst = files'.map Prod.fst)
    (hfolders : ∀ p, s.isFolder p = s'.isFolder p) :
    (s.putFiles place files).2 = (s'.putFiles place files').2 := by
  induction files generalizing files' s s' with
  | nil =>
    cases files' with
    | nil => rfl
    | cons _ _ => simp at hnames
  | cons file rest ih =>
    cases files' with
    | nil => simp at hnames
    | cons file' rest' =>
      obtain ⟨name, content⟩ := file
      obtain ⟨name', content'⟩ := file'
      simp only [List.map_cons, List.cons.injEq] at hnames
      obtain ⟨rfl, hrest⟩ := hnames
      simp only [putFiles, hfolders]
      split
      · rfl
      · refine ih hrest fun p => ?_
        rw [isFolder_put_file, isFolder_put_file, hfolders]

/-- The files of a list up to the first one whose path in a folder would be too long. -/
def fitting (folder : Path) (files : List (Text × κ)) : List (Text × κ) :=
  files.takeWhile fun f => folder.fits f.1

theorem map_fitting (folder : Path) (files : List (Text × κ)) :
    (fitting folder files).map Prod.fst = (files.map Prod.fst).takeWhile folder.fits := by
  rw [List.takeWhile_map]
  rfl

/-- Where a folder is found, its files are put there, and what goes wrong first is told. -/
theorem writeIn_eq {folder place : Path} (h : s.locate folder = .ok place)
    (files : List (Text × κ)) :
    s.writeIn folder files =
      ((s.putFiles place (fitting folder files)).1,
        (s.putFiles place (fitting folder files)).2.or
          (if (files.map Prod.fst).all folder.fits then none else some .nameTooLong)) := by
  have hall : (files.map Prod.fst).all folder.fits = files.all fun f => folder.fits f.1 :=
    List.all_map
  rw [hall]
  simp only [writeIn, h, fitting]
  cases s.putFiles place (files.takeWhile fun f => folder.fits f.1) with
  | mk written failure =>
    cases failure with
    | none => rfl
    | some e => rfl

theorem writeIn_failure (s : Storage κ) (folder : Path) {files files' : List (Text × κ)}
    (hnames : files.map Prod.fst = files'.map Prod.fst) :
    (s.writeIn folder files).2 = (s.writeIn folder files').2 := by
  cases hplace : s.locate folder with
  | error e => rw [writeIn, writeIn, hplace]
  | ok place =>
    have hfitting : (fitting folder files).map Prod.fst = (fitting folder files').map Prod.fst := by
      rw [map_fitting, map_fitting, hnames]
    have hput : (s.putFiles place (fitting folder files)).2 =
        (s.putFiles place (fitting folder files')).2 := putFiles_failure hfitting fun _ => rfl
    rw [writeIn_eq hplace, writeIn_eq hplace, hput, hnames]

theorem node?_putFiles_of_ne {place p : Path} {files : List (Text × κ)}
    (h : ∀ f ∈ files, p ≠ place.inside f.1) : (s.putFiles place files).1.node? p = s.node? p := by
  induction files generalizing s with
  | nil => rfl
  | cons file rest ih =>
    obtain ⟨name, content⟩ := file
    obtain ⟨hfile, hrest⟩ := List.forall_mem_cons.mp h
    simp only [putFiles]
    split
    · rfl
    · rw [ih hrest, node?_put]
      exact if_neg hfile

/-- Files of different names are all written, or in the place of one of them there is a folder. -/
theorem putFiles_cases (s : Storage κ) (place : Path) (files : List (Text × κ))
    (hnames : (files.map Prod.fst).Nodup) :
    (∀ f ∈ files, (s.putFiles place files).1.node? (place.inside f.1) = some (.file f.2)) ∨
      ∃ f ∈ files, (s.putFiles place files).1.node? (place.inside f.1) = some .folder := by
  induction files generalizing s with
  | nil => exact .inl fun f hf => nomatch hf
  | cons file rest ih =>
    obtain ⟨name, content⟩ := file
    rw [List.map_cons, List.nodup_cons] at hnames
    simp only [putFiles]
    split
    · next hfolder =>
      refine .inr ⟨_, List.mem_cons_self, ?_⟩
      unfold isFolder at hfolder
      split at hfolder
      · next hnode => exact hnode
      · contradiction
    · obtain hwritten | ⟨f, hf, hfolder⟩ :=
        ih (s.put (place.inside name) (.file content)) hnames.2
      · refine .inl (List.forall_mem_cons.mpr ⟨?_, hwritten⟩)
        have hother : ∀ f ∈ rest, place.inside name ≠ place.inside f.1 := by
          intro f hf heq
          rw [(Path.inside_inj heq).2] at hnames
          exact hnames.1 (List.mem_map.mpr ⟨f, hf, rfl⟩)
        show (putFiles (s.put (place.inside name) (.file content)) place rest).1.node?
          (place.inside name) = _
        rw [node?_putFiles_of_ne hother, node?_put, if_pos rfl]
      · exact .inr ⟨f, List.mem_cons_of_mem _ hf, hfolder⟩

/-- Every file has been there before. -/
def NoNewFiles (s s' : Storage κ) : Prop :=
  ∀ p content, s'.node? p = some (.file content) → s.node? p = some (.file content)

theorem NoNewFiles.refl (s : Storage κ) : NoNewFiles s s := fun _ _ h => h

theorem NoNewFiles.trans {s'' : Storage κ} (h : NoNewFiles s s') (h' : NoNewFiles s' s'') :
    NoNewFiles s s'' :=
  fun p content hp => h p content (h' p content hp)

theorem noNewFiles_put_folder (s : Storage κ) (place : Path) :
    NoNewFiles s (s.put place .folder) := by
  intro p content hp
  rw [node?_put] at hp
  split at hp
  · cases hp
  · exact hp

theorem noNewFiles_makeFolder (s : Storage κ) (last : Bool) (path : Path) :
    NoNewFiles s (s.makeFolder last path).1 := by
  unfold makeFolder
  split
  · exact .refl s
  · split
    · exact .refl s
    · exact .refl s
    · exact noNewFiles_put_folder s _

theorem noNewFiles_makeEach (s : Storage κ) (paths : List Path) :
    NoNewFiles s (s.makeEach paths).1 := by
  induction paths generalizing s with
  | nil => exact .refl s
  | cons path rest ih =>
    have hfirst := noNewFiles_makeFolder s rest.isEmpty path
    unfold makeEach
    split
    · next made hmade =>
      rw [hmade] at hfirst
      exact hfirst.trans (ih made)
    · next made e hmade =>
      rw [hmade] at hfirst
      exact hfirst

theorem noNewFiles_makeFolders (s : Storage κ) (path : Path) :
    NoNewFiles s (s.makeFolders path).1 := by
  unfold makeFolders
  split
  · exact .refl s
  · split
    · exact .refl s
    · exact noNewFiles_makeEach s path.ancestry

theorem noNewFiles_filterKeys (s : Storage κ) (keep : Path → Bool) :
    NoNewFiles s ⟨s.nodes.filterKeys keep⟩ := by
  intro p content hp
  rw [node?] at hp ⊢
  simp only [Table.get?_filterKeys] at hp
  cases hkeep : keep p with
  | true => simpa [hkeep] using hp
  | false =>
    rw [hkeep] at hp
    simp only [Bool.false_eq_true, if_false] at hp
    split at hp <;> cases hp

theorem noNewFiles_remove (s : Storage κ) (path : Path) : NoNewFiles s (s.remove path).1 := by
  unfold remove
  split
  · exact .refl s
  · split
    · exact .refl s
    · exact .refl s
    · next place _ _ _ =>
      have hcleared : NoNewFiles s (s.clear place) := noNewFiles_filterKeys s _
      simp only
      split
      · exact hcleared.trans (noNewFiles_filterKeys _ _)
      · exact hcleared

/-- What is left of a storage when whatever is at a path has been removed. -/
def Emptied (path : Path) (s s' : Storage κ) : Prop := s' = s ∨ s.remove path = (s', none)

theorem Emptied.noNewFiles {path : Path} (h : Emptied path s s') : NoNewFiles s s' := by
  obtain rfl | hremoved := h
  · exact .refl s'
  · have hfiles := noNewFiles_remove s path
    rwa [hremoved] at hfiles

/-- A file that is read lies where its path leads. -/
theorem node?_of_read {path : Path} {content : κ} (h : s.read path = .ok content) :
    ∃ place, s.locate path = .ok place ∧ s.node? place = some (.file content) := by
  rw [read, bind_eq_ok_iff] at h
  obtain ⟨place, hplace, h⟩ := h
  split at h
  · next hnode =>
    cases h
    exact ⟨place, hplace, hnode⟩
  · contradiction
  · contradiction

/-- Whether a text is the name of something in a folder, and nothing but a name. -/
def IsName (name : Text) : Prop := Path.ofText name = ⟨false, [name]⟩ ∧ name ≠ Path.upward

/-- The path of a name in a folder leads to something inside the place where the folder's names
lead. -/
theorem locate_child {folder p : Path} {name : Text} (hname : IsName name)
    (h : s.locate (folder.child name) = .ok p) :
    ∃ place, folder.names.foldlM s.enter ⟨folder.absolute, []⟩ = .ok place ∧
      p = place.inside name := by
  rw [Path.child, hname.1, Path.join, locate] at h
  simp only [Bool.false_eq_true, if_false] at h
  split at h
  · contradiction
  · split at h
    · contradiction
    · rw [List.foldlM_append, bind_eq_ok_iff] at h
      obtain ⟨place, hplace, h⟩ := h
      rw [List.foldlM_cons, bind_eq_ok_iff] at h
      obtain ⟨q, hq, h⟩ := h
      cases h
      rw [enter, if_neg hname.2] at hq
      split at hq
      · contradiction
      · cases hq
        exact ⟨place, hplace, rfl⟩

end Storage

end Concordance
