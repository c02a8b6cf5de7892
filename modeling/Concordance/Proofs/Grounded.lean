import Concordance.Proofs.MadeAgain
import Concordance.Proofs.Room
import Concordance.Proofs.Shelf

/-!
# Storage that hangs together

In a storage as it can come about, whatever is there lies in a folder, up to the folders
around everything. Whatever is made, written and removed leaves a storage so. What is found
at the end of a path then has something at every step of the way to it.
-/
namespace Concordance

namespace Path

variable {p place folder : Path} {name : Text}

theorem isOutward_of_inside (h : (p.inside name).isOutward = true) : p.isOutward = true := by
  rw [isOutward, inside, List.all_append, Bool.and_eq_true] at h
  exact h.1

/-- What is within a folder, and does not lead outward, has all that is in it within the folder. -/
theorem isWithin_inside (hp : p.isOutward = false) (h : folder.isWithin p = true) (name : Text) :
    folder.isWithin (p.inside name) = true := by
  rw [isWithin, Bool.and_eq_true] at h ⊢
  refine ⟨h.1, ?_⟩
  have hwithin := h.2
  split at hwithin
  · next houtward =>
    rw [if_pos houtward]
    rw [inside, List.takeWhile_append, if_neg]
    · exact hwithin
    · intro hall
      have hsame := (List.takeWhile_prefix (p := fun n => decide (n = upward))).eq_of_length hall
      rw [List.takeWhile_eq_self_iff] at hsame
      rw [isOutward, List.all_eq_true.mpr hsame] at hp
      cases hp
  · next houtward =>
    rw [if_neg houtward]
    rw [List.isPrefixOf_iff_prefix] at hwithin ⊢
    exact hwithin.trans (List.prefix_append _ _)

/-- A folder is not within what lies in it. -/
theorem inside_ne_of_isWithin (hp : p.isOutward = false) (h : folder.isWithin p = true) :
    p.inside name ≠ folder := by
  rintro rfl
  rw [isWithin, Bool.and_eq_true] at h
  have hwithin := h.2
  split at hwithin
  · next houtward =>
    rw [isOutward_of_inside houtward] at hp
    cases hp
  · have hlength := (List.isPrefixOf_iff_prefix.mp hwithin).length_le
    simp only [inside, List.length_append, List.length_singleton] at hlength
    omega

theorem destination_upTo_succ {path : Path} {k : Nat} (hk : k < path.names.length) :
    (path.upTo (k + 1)).destination = (path.upTo k).destination.lead path.names[k] := by
  rw [destination, destination, upTo, upTo, List.take_succ_eq_append_getElem hk,
    List.foldl_append]
  rfl

end Path

namespace Storage

variable {κ : Type} {s s' : Storage κ} {p place path : Path} {name : Text} {k : Nat}

/-- Whatever is there lies in a folder, up to the folders around everything. -/
structure Grounded (s : Storage κ) : Prop where
  rooted : s.Rooted
  outward : ∀ p : Path, p.isOutward = true → s.isFolder p = true

theorem grounded_empty : (empty : Storage κ).Grounded where
  rooted := rooted_empty
  outward p hp := by
    rw [isFolder, node?, hp]
    rfl

namespace Grounded

/-- There is something in a folder only. -/
theorem isFolder_of_node? (h : s.Grounded) (hnode : s.node? (place.inside name) ≠ none) :
    s.isFolder place = true := by
  by_contra hplace
  exact hnode (h.rooted place name (Bool.not_eq_true _ ▸ hplace))

/-- The folder around a folder is there. -/
theorem up (h : s.Grounded) (hp : s.isFolder p = true) : s.isFolder p.up = true := by
  rw [Path.up]
  split
  · next houtward =>
    split
    · exact hp
    · refine h.outward _ ?_
      rw [Path.isOutward, List.all_append, Bool.and_eq_true]
      exact ⟨houtward, rfl⟩
  · next hinward =>
    have hnames : p.names ≠ [] := by
      intro hnil
      rw [Path.isOutward, hnil] at hinward
      exact hinward rfl
    have hlast := List.getLast?_eq_some_getLast hnames
    have heq := Path.eq_inside_of_getLast? hlast
    have hnode : s.node? p ≠ none := by
      rw [isFolder_iff.mp hp]
      simp
    rw [heq] at hnode
    exact h.isFolder_of_node? hnode

/-- Something in a folder is put where no folder is. -/
theorem put (h : s.Grounded) (hplace : s.isFolder place = true)
    (hfree : s.isFolder (place.inside name) = false) (node : Node κ) :
    (s.put (place.inside name) node).Grounded := by
  have hother {q : Path} (hq : q ≠ place.inside name) :
      (s.put (place.inside name) node).node? q = s.node? q := by
    rw [node?_put, if_neg hq]
  refine ⟨fun q other hq => ?_, fun q hq => ?_⟩
  · have hsame : s.isFolder q = false := by
      by_cases hq' : q = place.inside name
      · rw [hq', hfree]
      · rwa [← isFolder_congr (hother hq')]
    rw [hother]
    · exact h.rooted q other hsame
    · intro heq
      rw [(Path.inside_inj heq).1, hplace] at hsame
      cases hsame
  · have hne : q ≠ place.inside name := by
      rintro rfl
      rw [h.outward _ hq] at hfree
      cases hfree
    rw [isFolder_congr (hother hne), h.outward q hq]

/-- A folder is made where the way to it is there. -/
theorem makeFolder (h : s.Grounded) (hk : k < path.names.length)
    (hhere : s.isFolder (path.upTo k).destination = true) (last : Bool) :
    (s.makeFolder last (path.upTo (k + 1))).1.Grounded := by
  unfold Storage.makeFolder
  split
  · exact h
  · next place hplace =>
    cases locate_eq hplace
    split
    · exact h
    · exact h
    · next hnone =>
      rw [Path.destination_upTo_succ hk, Path.lead] at hnone ⊢
      split at hnone
      · rw [isFolder_iff.mp (h.up hhere)] at hnone
        cases hnone
      · next hdown =>
        rw [if_neg hdown]
        exact h.put hhere (by rw [isFolder, hnone]) .folder

theorem makeEach (h : s.Grounded) {m : Nat} (hm : k + m ≤ path.names.length)
    (hhere : s.isFolder (path.upTo k).destination = true) :
    (s.makeEach ((List.range' k m).map fun n => path.upTo (n + 1))).1.Grounded := by
  induction m generalizing s k with
  | zero => exact h
  | succ m ih =>
    rw [List.range'_succ, List.map_cons]
    generalize hrest : (List.range' (k + 1) m).map (fun n => path.upTo (n + 1)) = rest
    have hk : k < path.names.length := by omega
    have hfirst := h.makeFolder hk hhere rest.isEmpty
    cases hmade : s.makeFolder rest.isEmpty (path.upTo (k + 1)) with
    | mk made failure =>
      rw [hmade] at hfirst
      cases failure with
      | none =>
        rw [makeEach_cons_of_made hmade, ← hrest]
        exact ih hfirst (by omega) (makeFolder_eq_none hmade).2.1
      | some e =>
        rw [makeEach_cons_of_failure hmade]
        exact hfirst

theorem makeFolders (h : s.Grounded) (path : Path) : (s.makeFolders path).1.Grounded := by
  unfold Storage.makeFolders
  split
  · exact h
  · split
    · exact h
    · rw [Path.ancestry, List.range_eq_range']
      exact h.makeEach (Nat.le_of_eq (Nat.zero_add _)) (h.outward _ rfl)

/-- A folder whose making succeeds is there. -/
theorem reaches_of_made (h : s.Grounded) (hmade : s.makeFolders path = (s', none)) :
    s'.Reaches path :=
  (reaches_of_makeFolders (h.outward _ rfl) hmade).1

theorem putFiles (h : s.Grounded) (hplace : s.isFolder place = true) (files : List (Text × κ)) :
    (s.putFiles place files).1.Grounded := by
  induction files generalizing s with
  | nil => exact h
  | cons file rest ih =>
    obtain ⟨name, content⟩ := file
    simp only [Storage.putFiles]
    split
    · exact h
    · next hfree =>
      have hfree : s.isFolder (place.inside name) = false := Bool.not_eq_true _ ▸ hfree
      refine ih (h.put hplace hfree (.file content)) ?_
      refine (isFolder_put_file s (place.inside name) content place).trans ?_
      rw [decide_eq_false (inside_ne_self place name), hplace]
      rfl

/-- Files are written into a folder that is there. -/
theorem writeIn (h : s.Grounded) {folder : Path} (hfolder : s.isFolder folder.destination = true)
    (files : List (Text × κ)) : (s.writeIn folder files).1.Grounded := by
  cases hplace : s.locate folder with
  | error e =>
    rw [Storage.writeIn, hplace]
    exact h
  | ok place =>
    rw [writeIn_eq hplace, locate_eq hplace]
    exact h.putFiles hfolder _

/-- Whatever is taken away is taken away with all that lies in it. -/
theorem filterKeys (h : s.Grounded) (keep : Path → Bool)
    (hdown : ∀ p name, p.isOutward = false → keep p = false →
      keep (p.inside name) = true → s.node? (p.inside name) = none) :
    (⟨s.nodes.filterKeys keep⟩ : Storage κ).Grounded := by
  have houtward (q : Path) (hq : q.isOutward = true) :
      (⟨s.nodes.filterKeys keep⟩ : Storage κ).isFolder q = true := by
    rw [isFolder_iff, node?_filterKeys, hq, isFolder_iff.mp (h.outward q hq)]
    split <;> rfl
  refine ⟨fun q name hq => ?_, houtward⟩
  have hinward : q.isOutward = false := by
    by_contra hout
    rw [houtward q (Bool.not_eq_false _ ▸ hout)] at hq
    cases hq
  have hinside : (q.inside name).isOutward = false := by
    by_contra hout
    rw [Path.isOutward_of_inside (Bool.not_eq_false _ ▸ hout)] at hinward
    cases hinward
  rw [node?_filterKeys, hinside]
  split
  · next hkept =>
    cases hkeep : keep q with
    | true =>
      have hsame : (⟨s.nodes.filterKeys keep⟩ : Storage κ).node? q = s.node? q := by
        rw [node?_filterKeys, hkeep, if_pos rfl]
      exact h.rooted q name ((isFolder_congr hsame).symm.trans hq)
    | false => exact hdown q name hinward hkeep hkept
  · rfl

theorem clear (h : s.Grounded) (place : Path) : (s.clear place).Grounded := by
  refine h.filterKeys _ fun q name hq hgone hkept => ?_
  simp only [Bool.or_eq_false_iff, decide_eq_false_iff_not, Bool.not_eq_false'] at hgone
  simp [Path.isWithin_inside hq hgone.2, Path.inside_ne_of_isWithin hq hgone.2] at hkept

theorem remove (h : s.Grounded) (path : Path) : (s.remove path).1.Grounded := by
  unfold Storage.remove
  split
  · exact h
  · next place _ =>
    split
    · exact h
    · exact h
    · have hcleared := h.clear place
      simp only
      split
      · refine hcleared.filterKeys _ fun q name hq hgone _ => ?_
        obtain rfl : q = place := by simpa using hgone
        have hwithin := (Path.isWithin_iff hq).mpr (Path.covers_inside q name)
        rw [Storage.clear, node?_filterKeys]
        simp [hwithin, (inside_ne_self q name).symm, Path.Covers.isOutward
          (Path.covers_inside q name) hq]
      · exact hcleared

/-- On the way to something, each step leads out of a folder. -/
theorem isFolder_upTo (h : s.Grounded) (hplace : s.locate path = .ok place)
    (hk : k < path.names.length) (hnode : s.node? (path.upTo (k + 1)).destination ≠ none) :
    s.isFolder (path.upTo k).destination = true := by
  rw [Path.destination_upTo_succ hk, Path.lead] at hnode
  split at hnode
  · next hup =>
    -- A name that leads back is followed out of a folder only.
    have hstep := (locate_eq_ok_iff.mp (locate_upTo hplace (k + 1))).2.2
    rw [Path.upTo, List.take_succ_eq_append_getElem hk, List.foldlM_append, bind_eq_ok_iff] at hstep
    obtain ⟨here, hhere, hlast⟩ := hstep
    rw [List.foldlM_cons, bind_eq_ok_iff] at hlast
    obtain ⟨there, hthere, -⟩ := hlast
    have heq : here = (path.upTo k).destination := foldlM_enter_eq hhere
    rw [enter, if_pos hup, heq] at hthere
    split at hthere
    · next hfolder => exact hfolder
    · cases hthere
  · exact h.isFolder_of_node? hnode

/-- There is something at every step of the way to something. -/
theorem way (h : s.Grounded) (hplace : s.locate path = .ok place) (hnode : s.node? place ≠ none)
    {k : Nat} (hk : k ≤ path.names.length) : s.node? (path.upTo k).destination ≠ none := by
  induction hn : path.names.length - k generalizing k with
  | zero =>
    obtain rfl : k = path.names.length := by omega
    rwa [Path.upTo_length, ← locate_eq hplace]
  | succ n ih =>
    have hfolder := h.isFolder_upTo hplace (by omega) (ih (k := k + 1) (by omega) (by omega))
    rw [isFolder_iff.mp hfolder]
    simp

end Grounded

/-- Whatever is read in a storage is read after new folders have been made in it. -/
theorem OnlyMakes.keeps {places : Path → Prop} (h : OnlyMakes s s' places) (hs : s.Grounded)
    (path : Path) : Keeps path s s' := by
  have hfound {q place : Path} (hplace : s.locate q = .ok place) (hnode : s.node? place ≠ none) :
      s'.locate q = .ok place ∧ s'.node? place = s.node? place :=
    ⟨h.locate (fun k hk => hs.way hplace hnode hk.le) hplace, h.node? hnode⟩
  refine ⟨fun hthere => ?_, fun file content _ hread => ?_⟩
  · cases hplace : s.locate path with
    | error e =>
      rw [contains, hplace] at hthere
      cases e <;> cases hthere
    | ok place =>
      rw [contains_of_locate hplace] at hthere
      have hnode : s.node? place ≠ none := by
        intro hnone
        rw [hnone] at hthere
        cases hthere
      obtain ⟨hplace', hsame⟩ := hfound hplace hnode
      rw [contains_of_locate hplace', hsame, hthere]
  · obtain ⟨place, hplace, hfile⟩ := node?_of_read hread
    obtain ⟨hplace', hsame⟩ := hfound hplace (by rw [hfile]; simp)
    rw [read, hplace', ok_bind, hsame, hfile]

end Storage

open Storage (Grounded)

variable {s : IndexStorage}

namespace MemoryIndex

theorem grounded_save (h : s.Grounded) (x : MemoryIndex) (t : Tables) (path : Path) :
    (x.save t s path).1.Grounded := by
  have hmakes := h.makeFolders path
  rw [save]
  cases hmade : s.makeFolders path with
  | mk made failure =>
    rw [hmade] at hmakes
    cases failure with
    | some e => exact hmakes
    | none =>
      have hfolder := (h.reaches_of_made hmade).isFolder
      obtain ⟨files, hfiles, -⟩ := x.exists_files_saveIn t made path
      simp only [hfiles]
      exact hmakes.writeIn hfolder files

theorem grounded_create (h : s.Grounded) (x : MemoryIndex) (now : Text) (name : Json)
    (entries : List Json) : (x.create s now name entries).storage.Grounded := by
  obtain ⟨cleared, e, hcleared, hfails⟩ | ⟨cleared, t, -, hemptied, hbuilds⟩ :=
    create_cases x s now name
  · obtain ⟨log, hlog⟩ := hfails entries
    rw [hlog]
    obtain rfl | ⟨path, rfl⟩ := hcleared
    · exact h
    · exact h.remove path
  · obtain ⟨log, hlog⟩ := hbuilds entries
    have hgrounded : cleared.Grounded := by
      obtain rfl | hremoved := hemptied
      · exact h
      · have hleft := h.remove (x.home.child t)
        rwa [hremoved] at hleft
    rw [hlog, build]
    split
    · exact hgrounded
    · exact grounded_save hgrounded _ _ _

end MemoryIndex

namespace DatabaseIndex

theorem grounded_fill (h : s.Grounded) {path : Path} (hfolder : s.isFolder path.destination = true)
    (x : DatabaseIndex) (name : Text) (entries : List Json) :
    (x.fill s name path entries).storage.Grounded := by
  simp only [fill]
  split <;> exact h.writeIn hfolder _

theorem grounded_build (h : s.Grounded) (x : DatabaseIndex) (name : Text) (path : Path)
    (entries : List Json) : (x.build s name path entries).storage.Grounded := by
  have hmakes := h.makeFolders path
  rw [build]
  cases hmade : s.makeFolders path with
  | mk made failure =>
    rw [hmade] at hmakes
    cases failure with
    | some e => exact hmakes
    | none =>
      have hfolder := (h.reaches_of_made hmade).isFolder
      have hwrites := hmakes.writeIn hfolder [(databaseFile, .database .empty)]
      have hstill := Storage.sameFolders_writeIn made path [(databaseFile, .database .empty)]
        path.destination
      simp only
      cases hwritten : made.writeIn path [(databaseFile, .database .empty)] with
      | mk written failure =>
        rw [hwritten] at hwrites hstill
        cases failure with
        | some e => exact hwrites
        | none => exact grounded_fill hwrites (hstill.trans hfolder) x name entries

theorem grounded_create (h : s.Grounded) (x : DatabaseIndex) (name : Json) (entries : List Json) :
    (x.create s name entries).storage.Grounded := by
  rw [create]
  split
  · next t _ =>
    simp only [replace]
    split
    · exact h
    · exact grounded_build h _ _ _ _
    · have hremoves := h.remove (x.close.home.child t)
      split
      · next left e hremoved =>
        rw [hremoved] at hremoves
        exact hremoves
      · next left hremoved =>
        rw [hremoved] at hremoves
        exact grounded_build hremoves _ _ _ _
  · exact h

end DatabaseIndex

namespace Index

theorem grounded_create (h : s.Grounded) (x : Index) (now : Text) (name : Json)
    (entries : List Json) : (x.create s now name entries).storage.Grounded := by
  cases x with
  | memory x => exact MemoryIndex.grounded_create h x now name entries
  | database x => exact DatabaseIndex.grounded_create h x name entries

theorem grounded_delete (h : s.Grounded) (x : Index) (name : Text) :
    (x.delete s name).storage.Grounded :=
  storage_delete h (h.remove _)

end Index

end Concordance
