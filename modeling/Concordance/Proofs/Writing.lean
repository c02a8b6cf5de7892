import Concordance.Proofs.Storage
import Mathlib.Data.List.TakeWhile

/-!
# What is written is read back

Where a path leads does not depend on what is stored; that it leads anywhere depends on
the folders on the way. Writing files changes no folder, so a file that has been written
into a folder is found there again, whatever that folder's path is.
-/
namespace Concordance

theorem utf8Length_append (s t : Text) : utf8Length (s ++ t) = utf8Length s + utf8Length t := by
  have hfrom (t : Text) (n : Nat) :
      t.foldl (fun n c => n + c.utf8Size) n = n + t.foldl (fun n c => n + c.utf8Size) 0 := by
    induction t generalizing n with
    | nil => rfl
    | cons c rest ih =>
      rw [List.foldl_cons, List.foldl_cons, ih (n + c.utf8Size), ih (0 + c.utf8Size)]
      omega
  rw [utf8Length, List.foldl_append, hfrom]
  rfl

theorem joinWith_concat (separator : Text) {parts : List Text} (h : parts ≠ []) (last : Text) :
    joinWith separator (parts ++ [last]) = joinWith separator parts ++ separator ++ last := by
  induction parts with
  | nil => contradiction
  | cons part rest ih =>
    cases rest with
    | nil => rfl
    | cons next rest =>
      have hjoin (l : List Text) : joinWith separator (part :: next :: l) =
          part ++ separator ++ joinWith separator (next :: l) := rfl
      rw [List.cons_append, List.cons_append, hjoin, ← List.cons_append, ih (List.cons_ne_nil _ _),
        hjoin]
      simp only [List.append_assoc]

/-- What stands before the last part does not depend on it. -/
theorem joinWith_append_singleton (separator : Text) (parts : List Text) :
    ∃ front, ∀ last, joinWith separator (parts ++ [last]) = front ++ last := by
  by_cases hparts : parts = []
  · rw [hparts]
    exact ⟨[], fun _ => rfl⟩
  · exact ⟨joinWith separator parts ++ separator, joinWith_concat separator hparts⟩

namespace Path

theorem toText_inside (place : Path) :
    ∃ front, ∀ name, (place.inside name).toText = front ++ name := by
  obtain ⟨front, hfront⟩ := joinWith_append_singleton ['/'] place.names
  cases habsolute : place.absolute with
  | true =>
    refine ⟨'/' :: front, fun name => ?_⟩
    rw [toText, inside, habsolute, if_pos rfl, hfront]
    rfl
  | false =>
    refine ⟨front, fun name => ?_⟩
    have hne : (place.names ++ [name]).isEmpty = false := by simp
    rw [toText, inside, habsolute, if_neg Bool.false_ne_true, hne, if_neg Bool.false_ne_true,
      hfront]

theorem child_eq_inside {name : Text} (h : Storage.IsName name) (folder : Path) :
    folder.child name = folder.inside name := by
  rw [child, h.1]
  rfl

/-- Where the path of a file is not too long, that of a file with a shorter name is not. -/
theorem fits_of_length_le {folder : Path} {name name' : Text} (hname : Storage.IsName name)
    (hname' : Storage.IsName name') (hle : utf8Length name' ≤ utf8Length name)
    (h : folder.fits name = true) : folder.fits name' = true := by
  obtain ⟨front, hfront⟩ := folder.toText_inside
  simp only [fits, child_eq_inside hname, child_eq_inside hname', isTooLong, hfront,
    utf8Length_append, Bool.not_eq_true', decide_eq_false_iff_not] at h ⊢
  omega

/-- Where a folder has too long a path, so has everything in it. -/
theorem isTooLong_inside {place : Path} (h : place.isTooLong = true) (name : Text) :
    (place.inside name).isTooLong = true := by
  obtain ⟨absolute, names⟩ := place
  by_cases hnames : names = []
  · rw [hnames] at h
    cases absolute <;> contradiction
  · have hjoin := joinWith_concat ['/'] hnames name
    have hempty : names.isEmpty = false := by simpa using hnames
    have hempty' : (names ++ [name]).isEmpty = false := by simp
    simp only [isTooLong, toText, inside, hempty, hempty', hjoin, decide_eq_true_eq] at h ⊢
    cases absolute <;>
      simp only [Bool.false_eq_true, if_false, if_true, ← List.cons_append,
        utf8Length_append] at h ⊢
    all_goals omega

/-- Where a name leads from a followed path. -/
def lead (here : Path) (name : Text) : Path := if name = upward then here.up else here.inside name

/-- Where a path leads, if it leads anywhere. -/
def destination (p : Path) : Path := p.names.foldl lead ⟨p.absolute, []⟩

/-- The path of the first names of a path. -/
def upTo (p : Path) (k : Nat) : Path := ⟨p.absolute, p.names.take k⟩

end Path

namespace Storage

variable {κ : Type} {s s' : Storage κ}

theorem enter_eq {here p : Path} {name : Text} (h : s.enter here name = .ok p) :
    p = here.lead name := by
  unfold enter at h
  rw [Path.lead]
  split at h
  · next hup =>
    rw [if_pos hup]
    split at h
    · exact (Except.ok.inj h).symm
    · cases h
  · next hup =>
    rw [if_neg hup]
    split at h
    · cases h
    · exact (Except.ok.inj h).symm

theorem foldlM_enter_eq {names : List Text} {here p : Path}
    (h : names.foldlM s.enter here = .ok p) : p = names.foldl Path.lead here := by
  induction names generalizing here with
  | nil => exact (Except.ok.inj h).symm
  | cons name rest ih =>
    rw [List.foldlM_cons, bind_eq_ok_iff] at h
    obtain ⟨q, hq, h⟩ := h
    rw [List.foldl_cons, ← enter_eq hq]
    exact ih h

/-- A path that is followed to its end is allowed, and leads to its destination. -/
theorem locate_eq_ok_iff {path place : Path} :
    s.locate path = .ok place ↔ path.isForbidden = false ∧ path.isTooLong = false ∧
      path.names.foldlM s.enter ⟨path.absolute, []⟩ = .ok place := by
  rw [locate]
  cases path.isForbidden with
  | true => simp
  | false =>
    cases path.isTooLong with
    | true => simp
    | false => simp

theorem locate_eq {path place : Path} (h : s.locate path = .ok place) :
    place = path.destination :=
  foldlM_enter_eq (locate_eq_ok_iff.mp h).2.2

theorem contains_of_locate {path place : Path} (h : s.locate path = .ok place) :
    s.contains path = .ok (s.node? place).isSome := by
  rw [contains, h]

theorem enter_congr {here p : Path} {name : Text} (hfolder : s'.isFolder here = s.isFolder here)
    (h : s.enter here name = .ok p) : s'.enter here name = .ok p := by
  unfold enter at h ⊢
  rw [hfolder]
  split at h
  · next hup =>
    rw [if_pos hup]
    split at h
    · next hthere =>
      rw [if_pos hthere]
      exact h
    · cases h
  · next hup =>
    rw [if_neg hup]
    split at h
    · cases h
    · next hshort =>
      rw [if_neg hshort]
      exact h

/-- A path is followed to its end wherever the folders on its way are the same. -/
theorem locate_congr {path place : Path}
    (hway : ∀ k < path.names.length,
      s'.isFolder (path.upTo k).destination = s.isFolder (path.upTo k).destination)
    (h : s.locate path = .ok place) : s'.locate path = .ok place := by
  have hfold {names : List Text} {here : Path}
      (hway : ∀ k < names.length, s'.isFolder ((names.take k).foldl Path.lead here) =
        s.isFolder ((names.take k).foldl Path.lead here))
      (hnames : names.foldlM s.enter here = .ok place) :
      names.foldlM s'.enter here = .ok place := by
    induction names generalizing here with
    | nil => exact hnames
    | cons name rest ih =>
      rw [List.foldlM_cons, bind_eq_ok_iff] at hnames
      obtain ⟨p, hp, hrest⟩ := hnames
      have hhere : s'.isFolder here = s.isFolder here := hway 0 (Nat.zero_lt_succ _)
      rw [List.foldlM_cons, enter_congr hhere hp, ok_bind]
      refine ih (fun k hk => ?_) hrest
      rw [enter_eq hp]
      exact hway (k + 1) (Nat.succ_lt_succ hk)
  rw [locate_eq_ok_iff] at h ⊢
  exact ⟨h.1, h.2.1, hfold hway h.2.2⟩

/-- Two storages have their folders in the same places. -/
def SameFolders (s s' : Storage κ) : Prop := ∀ p, s'.isFolder p = s.isFolder p

theorem SameFolders.locate (h : SameFolders s s') {path place : Path}
    (hplace : s.locate path = .ok place) : s'.locate path = .ok place :=
  locate_congr (fun k _ => h (path.upTo k).destination) hplace

theorem sameFolders_putFiles (s : Storage κ) (place : Path) (files : List (Text × κ)) :
    SameFolders s (s.putFiles place files).1 := by
  induction files generalizing s with
  | nil => exact fun _ => rfl
  | cons file rest ih =>
    obtain ⟨name, content⟩ := file
    simp only [putFiles]
    split
    · exact fun _ => rfl
    · next hfolder =>
      intro p
      rw [ih, isFolder_put_file]
      change (!decide (p = place.inside name) && s.isFolder p) = s.isFolder p
      by_cases hp : p = place.inside name
      · subst hp
        have hnone : s.isFolder (place.inside name) = false := Bool.eq_false_iff.mpr hfolder
        rw [hnone, Bool.and_false]
      · rw [decide_eq_false hp]
        rfl

/-- Where files are all put, no folder is in the place of one of them. -/
theorem isFolder_of_putFiles {place : Path} {files : List (Text × κ)}
    (h : (s.putFiles place files).2 = none) {f : Text × κ} (hf : f ∈ files) :
    s.isFolder (place.inside f.1) = false := by
  induction files generalizing s with
  | nil => exact absurd hf List.not_mem_nil
  | cons file rest ih =>
    obtain ⟨name, content⟩ := file
    have hsame := sameFolders_putFiles s place [(name, content)]
    simp only [putFiles] at h hsame
    split at h
    · cases h
    · next hfolder =>
      rw [if_neg hfolder] at hsame
      obtain rfl | hf := List.mem_cons.mp hf
      · exact Bool.eq_false_iff.mpr hfolder
      · rw [← hsame]
        exact ih h hf

theorem node?_of_putFiles {place : Path} {files : List (Text × κ)}
    (hnames : (files.map Prod.fst).Nodup) (h : (s.putFiles place files).2 = none)
    {f : Text × κ} (hf : f ∈ files) :
    (s.putFiles place files).1.node? (place.inside f.1) = some (.file f.2) := by
  obtain hwritten | ⟨g, hg, hfolder⟩ := putFiles_cases s place files hnames
  · exact hwritten f hf
  · have hnone := isFolder_of_putFiles h hg
    rw [← sameFolders_putFiles s place files, isFolder, hfolder] at hnone
    contradiction

/-- What a writing that succeeds has done: all files have been put where the folder's path leads. -/
theorem writeIn_eq_none_iff {folder : Path} {files : List (Text × κ)} :
    (s.writeIn folder files).2 = none ↔ ∃ place, s.locate folder = .ok place ∧
      (∀ f ∈ files, folder.fits f.1 = true) ∧ (s.putFiles place files).2 = none := by
  cases hplace : s.locate folder with
  | error e => simp [writeIn, hplace]
  | ok place =>
    rw [writeIn_eq hplace, Option.or_eq_none_iff]
    have hall : (if (files.map Prod.fst).all folder.fits then none
        else some Failure.nameTooLong) = none ↔ ∀ f ∈ files, folder.fits f.1 = true := by
      simp
    have hfitting (h : ∀ f ∈ files, folder.fits f.1 = true) : fitting folder files = files :=
      List.takeWhile_eq_self_iff.mpr h
    rw [hall]
    constructor
    · rintro ⟨hput, hfits⟩
      rw [hfitting hfits] at hput
      exact ⟨place, rfl, hfits, hput⟩
    · rintro ⟨place', heq, hfits, hput⟩
      cases heq
      rw [hfitting hfits]
      exact ⟨hput, hfits⟩

theorem writeIn_fst {folder place : Path} {files : List (Text × κ)}
    (hplace : s.locate folder = .ok place) (hfits : ∀ f ∈ files, folder.fits f.1 = true) :
    (s.writeIn folder files).1 = (s.putFiles place files).1 := by
  rw [writeIn_eq hplace, fitting, List.takeWhile_eq_self_iff.mpr hfits]

/-- A name that a file may have in any folder. -/
def IsFileName (name : Text) : Prop :=
  IsName name ∧ name.any Path.isRefused = false ∧ utf8Length name ≤ maxName

/-- What a name leads to in a folder is located where the folder is, if the path is not too long. -/
theorem locate_child_eq {folder : Path} {name : Text} (hname : IsFileName name)
    (hfits : folder.fits name = true) :
    s.locate (folder.child name) = (s.locate folder).map fun place => place.inside name := by
  have hchild := Path.child_eq_inside hname.1 folder
  have hlong : (folder.inside name).isTooLong = false := by
    rw [← hchild]
    simpa [Path.fits] using hfits
  have hshort : folder.isTooLong = false :=
    Bool.eq_false_iff.mpr fun h => by simp [Path.isTooLong_inside h name] at hlong
  have hforbidden : (folder.inside name).isForbidden = folder.isForbidden := by
    simp only [Path.isForbidden, Path.inside, List.any_append, List.any_cons, List.any_nil,
      hname.2.1, Bool.or_false]
  have hlast (place : Path) : s.enter place name = .ok (place.inside name) := by
    rw [enter, if_neg hname.1.2]
    simp only [Nat.not_lt.mpr hname.2.2, decide_false, Bool.false_and, Bool.false_eq_true, if_false]
    rfl
  rw [hchild, locate, locate, hforbidden, hlong, hshort]
  cases folder.isForbidden with
  | true => rfl
  | false =>
    simp only [Bool.false_eq_true, if_false, Path.inside, List.foldlM_append]
    cases folder.names.foldlM s.enter ⟨folder.absolute, []⟩ with
    | error e => rfl
    | ok place =>
      simp only [ok_bind, List.foldlM_cons, hlast]
      rfl

theorem locate_child_of_folder {folder place : Path} {name : Text} (hname : IsFileName name)
    (hplace : s.locate folder = .ok place) (hfits : folder.fits name = true) :
    s.locate (folder.child name) = .ok (place.inside name) := by
  rw [locate_child_eq hname hfits, hplace]
  rfl

section Writing

variable {folder : Path} {files : List (Text × κ)}

theorem sameFolders_writeIn (s : Storage κ) (folder : Path) (files : List (Text × κ)) :
    SameFolders s (s.writeIn folder files).1 := by
  cases hplace : s.locate folder with
  | error e =>
    rw [writeIn, hplace]
    exact fun _ => rfl
  | ok place =>
    rw [writeIn_eq hplace]
    exact sameFolders_putFiles s place _

/-- Files that have been written are read back. -/
theorem read_of_writeIn (hfiles : ∀ f ∈ files, IsFileName f.1)
    (hnames : (files.map Prod.fst).Nodup) (h : (s.writeIn folder files).2 = none)
    {f : Text × κ} (hf : f ∈ files) :
    (s.writeIn folder files).1.read (folder.child f.1) = .ok f.2 := by
  obtain ⟨place, hplace, hfits, hput⟩ := writeIn_eq_none_iff.mp h
  have hlocated := (sameFolders_writeIn s folder files).locate hplace
  rw [read, locate_child_of_folder (hfiles f hf) hlocated (hfits f hf), ok_bind,
    writeIn_fst hplace hfits, node?_of_putFiles hnames hput hf]

theorem file_of_putFiles {place p : Path} {content : κ}
    (h : (s.putFiles place files).1.node? p = some (.file content)) :
    s.node? p = some (.file content) ∨ ∃ f ∈ files, p = place.inside f.1 ∧ content = f.2 := by
  induction files generalizing s with
  | nil => exact .inl h
  | cons file rest ih =>
    obtain ⟨name, written⟩ := file
    simp only [putFiles] at h
    split at h
    · exact .inl h
    · obtain hbefore | ⟨f, hf, hfile⟩ := ih h
      · rw [node?_put] at hbefore
        split at hbefore
        · next hp =>
          cases hbefore
          exact .inr ⟨_, List.mem_cons_self, hp, rfl⟩
        · exact .inl hbefore
      · exact .inr ⟨f, List.mem_cons_of_mem _ hf, hfile⟩

/-- A file that is there after files have been written was there before, or is one of them. -/
theorem file_of_writeIn {p : Path} {content : κ}
    (h : (s.writeIn folder files).1.node? p = some (.file content)) :
    s.node? p = some (.file content) ∨
      ∃ f ∈ files, p = folder.destination.inside f.1 ∧ content = f.2 := by
  cases hplace : s.locate folder with
  | error e =>
    rw [writeIn, hplace] at h
    exact .inl h
  | ok place =>
    rw [writeIn_eq hplace] at h
    rw [← locate_eq hplace]
    obtain hbefore | ⟨f, hf, hfile⟩ := file_of_putFiles h
    · exact .inl hbefore
    · exact .inr ⟨f, (List.takeWhile_prefix _).subset hf, hfile⟩

/-- Where files have been written, others of the same names can be written over them. -/
theorem writeIn_again (h : (s.writeIn folder files).2 = none) {files' : List (Text × κ)}
    (hnames : files.map Prod.fst = files'.map Prod.fst) :
    ((s.writeIn folder files).1.writeIn folder files').2 = none := by
  obtain ⟨place, hplace, hfits, hput⟩ := writeIn_eq_none_iff.mp h
  have hsame := sameFolders_writeIn s folder files
  refine writeIn_eq_none_iff.mpr ⟨place, hsame.locate hplace, ?_, ?_⟩
  · intro f hf
    obtain ⟨g, hg, hgf⟩ := List.mem_map.mp (hnames ▸ List.mem_map_of_mem (f := Prod.fst) hf)
    rw [← hgf]
    exact hfits g hg
  · rw [← hput]
    exact putFiles_failure hnames.symm hsame

/-- There is something at the path of a folder also after files have been written into it. -/
theorem contains_of_writeIn (hthere : s.contains folder = .ok true) :
    (s.writeIn folder files).1.contains folder = .ok true := by
  cases hplace : s.locate folder with
  | error e =>
    rw [contains, hplace] at hthere
    cases e <;> cases hthere
  | ok place =>
    rw [contains_of_locate hplace] at hthere
    rw [contains_of_locate ((sameFolders_writeIn s folder files).locate hplace), writeIn_eq hplace]
    have hnode : (s.putFiles place (fitting folder files)).1.node? place = s.node? place := by
      refine node?_putFiles_of_ne fun f _ heq => ?_
      have hlength := congrArg (fun p => p.names.length) heq
      simp [Path.inside] at hlength
    rwa [hnode]

end Writing

theorem ancestry_eq {path : Path} (h : path.names ≠ []) :
    ∃ before, path.ancestry = before ++ [path] := by
  have hlength : path.names.length = path.names.length - 1 + 1 := by
    have hpos := List.length_pos_iff.mpr h
    omega
  rw [Path.ancestry, hlength, List.range_succ, List.map_append, List.map_singleton, ← hlength,
    List.take_length]
  exact ⟨_, rfl⟩

theorem makeFolder_of_makeEach {paths : List Path} {path : Path}
    (h : s.makeEach (paths ++ [path]) = (s', none)) :
    ∃ t : Storage κ, t.makeFolder true path = (s', none) := by
  induction paths generalizing s with
  | nil =>
    simp only [List.nil_append, makeEach] at h
    split at h
    · next made hmade =>
      cases h
      exact ⟨s, hmade⟩
    · cases h
  | cons first rest ih =>
    simp only [List.cons_append, makeEach] at h
    split at h
    · exact ih h
    · cases h

/-- There is something at the path of a folder that has been made, wherever that path leads. -/
theorem contains_of_makeFolders {path place : Path} (h : s.makeFolders path = (s', none))
    (hplace : s'.locate path = .ok place) : s'.contains path = .ok true := by
  rw [contains_of_locate hplace]
  by_cases hnames : path.names = []
  · -- The root and the working directory are always there.
    have hstart : place = ⟨path.absolute, []⟩ := by
      rw [locate_eq hplace, Path.destination, hnames]
      rfl
    rw [hstart]
    simp only [node?, Path.isOutward, List.all_nil, if_true]
    split <;> rfl
  · unfold makeFolders at h
    split at h
    · cases h
    · split at h
      · cases h
      · obtain ⟨before, hbefore⟩ := ancestry_eq hnames
        rw [hbefore] at h
        obtain ⟨t, ht⟩ := makeFolder_of_makeEach h
        unfold makeFolder at ht
        split at ht
        · cases ht
        · next place' hplace' =>
          have heq : place' = place := (locate_eq hplace').trans (locate_eq hplace).symm
          subst heq
          split at ht
          · next hnode =>
            cases ht
            rw [hnode]
            rfl
          · cases ht
          · cases ht
            rw [node?_put, if_pos rfl]
            rfl

end Storage

end Concordance
