import Concordance.Proofs.Folders
import Mathlib.Data.List.Induction

/-!
# Folders that are there

To make a folder that is there changes nothing. Where the way to a folder is there, it stays
there whatever is made elsewhere, and whatever is removed or made in the folder itself,
whether that succeeds or not.
-/
namespace Concordance

namespace Path

variable {path : Path}

/-- The first names of a path have no longer a text than the path. -/
theorem isTooLong_upTo (h : path.isTooLong = false) (k : Nat) :
    (path.upTo k).isTooLong = false := by
  obtain ⟨absolute, names⟩ := path
  induction names using List.reverseRecOn with
  | nil => rwa [upTo, List.take_nil]
  | append_singleton names name ih =>
    by_cases hk : k ≤ names.length
    · have hshort : (Path.mk absolute names).isTooLong = false :=
        Bool.eq_false_iff.mpr fun hlong => Bool.eq_false_iff.mp h (isTooLong_inside hlong name)
      have hsame : ((Path.mk absolute names).inside name).upTo k = _ := upTo_inside hk name
      rw [inside] at hsame
      rw [hsame]
      exact ih hshort
    · rwa [upTo, List.take_of_length_le (by simp; omega)]

theorem isForbidden_upTo (h : path.isForbidden = false) (k : Nat) :
    (path.upTo k).isForbidden = false := by
  rw [isForbidden, List.any_eq_false] at h ⊢
  exact fun name hname => h name (List.mem_of_mem_take hname)

theorem upTo_upTo {j k : Nat} (hj : j ≤ k) : (path.upTo k).upTo j = path.upTo j := by
  rw [upTo, upTo, List.take_take, Nat.min_eq_left hj, upTo]

theorem length_upTo {k : Nat} (hk : k ≤ path.names.length) : (path.upTo k).names.length = k := by
  rw [upTo, List.length_take, Nat.min_eq_left hk]

theorem length_child {name : Text} (hname : Storage.IsName name) (home : Path) :
    (home.child name).names.length = home.names.length + 1 := by
  simp [child_eq_inside hname, inside]

theorem upTo_child {home : Path} {name : Text} (hname : Storage.IsName name) {k : Nat}
    (hk : k ≤ home.names.length) : (home.child name).upTo k = home.upTo k := by
  rw [child_eq_inside hname, upTo_inside hk]

theorem ancestry_inside (place : Path) (name : Text) :
    (place.inside name).ancestry = place.ancestry ++ [place.inside name] := by
  have hlength : (place.inside name).names.length = place.names.length + 1 := by simp [inside]
  rw [ancestry, hlength, List.range_succ, List.map_append, List.map_singleton, ancestry]
  refine congrArg₂ _ (List.map_congr_left fun n hn => ?_) ?_
  · exact upTo_inside (Nat.succ_le_of_lt (List.mem_range.mp hn)) name
  · rw [← hlength, List.take_length]

end Path

namespace Storage

variable {κ : Type} {s s' : Storage κ} {path home p : Path} {name : Text}

/-- Where a path is followed to its end, so are its first names. -/
theorem locate_upTo {place : Path} (h : s.locate path = .ok place) (k : Nat) :
    s.locate (path.upTo k) = .ok (path.upTo k).destination := by
  obtain ⟨hforbidden, hlong, hfollow⟩ := locate_eq_ok_iff.mp h
  rw [← List.take_append_drop k path.names, List.foldlM_append, bind_eq_ok_iff] at hfollow
  obtain ⟨q, hq, -⟩ := hfollow
  have hlocated : s.locate (path.upTo k) = .ok q :=
    locate_eq_ok_iff.mpr ⟨Path.isForbidden_upTo hforbidden k, Path.isTooLong_upTo hlong k, hq⟩
  rwa [locate_eq hlocated] at hlocated

theorem Reaches.upTo (h : s.Reaches path) {k : Nat} (hk : k ≤ path.names.length) :
    s.Reaches (path.upTo k) where
  located := locate_upTo h.located k
  folders j hj := by
    rw [Path.length_upTo hk] at hj
    rw [Path.upTo_upTo hj]
    exact h.folders j (hj.trans hk)

/-- The folder in which a folder lies is there if that one is. -/
theorem Reaches.of_child (hname : IsName name) (h : s.Reaches (home.child name)) :
    s.Reaches home := by
  rw [Path.child_eq_inside hname] at h
  have hlength : home.names.length ≤ (home.inside name).names.length := by simp [Path.inside]
  have hfirst := h.upTo hlength
  rwa [Path.upTo_inside (Nat.le_refl _), Path.upTo_length] at hfirst

/-- A folder in a folder that is there is reached. -/
theorem Reaches.child (h : s.Reaches home) (hname : home.Takes name)
    (hfolder : s.isFolder (home.destination.inside name) = true) : s.Reaches (home.child name) := by
  have hdestination := Path.destination_child hname.1.1 home
  refine ⟨hdestination ▸ h.locate_child hname, fun k hk => ?_⟩
  rw [Path.child_eq_inside hname.1.1] at hk ⊢
  have hlength : (home.inside name).names.length = home.names.length + 1 := by simp [Path.inside]
  obtain hk | rfl := Nat.le_succ_iff.mp (hlength ▸ hk)
  · rw [Path.upTo_inside hk]
    exact h.folders k hk
  · rw [← Nat.add_one, ← hlength, Path.upTo_length, ← Path.child_eq_inside hname.1.1, hdestination]
    exact hfolder

theorem makeEach_append_of_reaches {before : List Path} (h : ∀ q ∈ before, s.Reaches q)
    (after : List Path) : s.makeEach (before ++ after) = s.makeEach after := by
  induction before with
  | nil => rfl
  | cons q rest ih =>
    obtain ⟨hq, hrest⟩ := List.forall_mem_cons.mp h
    rw [List.cons_append, makeEach, makeFolder, hq.located]
    simp only [isFolder_iff.mp hq.isFolder]
    exact ih hrest

theorem Reaches.ancestry (h : s.Reaches path) : ∀ q ∈ path.ancestry, s.Reaches q := by
  intro q hq
  obtain ⟨n, hn, rfl⟩ := List.mem_map.mp hq
  exact h.upTo (Nat.succ_le_of_lt (List.mem_range.mp hn))

/-- A folder that is there with the folders on the way to it is not made again. -/
theorem makeFolders_of_reaches (h : s.Reaches path) : s.makeFolders path = (s, none) := by
  obtain ⟨hforbidden, hlong, -⟩ := locate_eq_ok_iff.mp h.located
  rw [makeFolders, hforbidden, hlong]
  simp only [Bool.false_eq_true, if_false]
  rw [← List.append_nil path.ancestry, makeEach_append_of_reaches h.ancestry]
  rfl

/-- Of a folder in a folder that is there only the last one is made. -/
theorem makeFolders_child (h : s.Reaches home) (hname : home.Takes name) :
    s.makeFolders (home.child name) = s.makeFolder true (home.child name) := by
  obtain ⟨hforbidden, hlong, -⟩ := locate_eq_ok_iff.mp (h.locate_child hname)
  rw [makeFolders, hforbidden, hlong]
  simp only [Bool.false_eq_true, if_false]
  rw [Path.child_eq_inside hname.1.1, Path.ancestry_inside,
    makeEach_append_of_reaches h.ancestry, makeEach, List.isEmpty_nil]
  split <;> simp_all [makeEach]

/-- Folders stay when others are made, also when that fails midway. -/
theorem isFolder_makeFolder (last : Bool) (path : Path) (h : s.isFolder p = true) :
    (s.makeFolder last path).1.isFolder p = true := by
  unfold makeFolder
  split
  · exact h
  · split
    · exact h
    · exact h
    · rw [isFolder_iff, node?_put]
      split
      · rfl
      · exact isFolder_iff.mp h

theorem isFolder_makeFolders (path : Path) (h : s.isFolder p = true) :
    (s.makeFolders path).1.isFolder p = true := by
  unfold makeFolders
  split
  · exact h
  · split
    · exact h
    · induction path.ancestry generalizing s with
      | nil => exact h
      | cons first rest ih =>
        have hfirst := isFolder_makeFolder rest.isEmpty first h
        rw [makeEach]
        split
        · next made hmade =>
          rw [hmade] at hfirst
          exact ih hfirst
        · next made e hmade =>
          rw [hmade] at hfirst
          exact hfirst

/-- What is outside a folder stays as it is when the folder is removed, also when that fails. -/
theorem node?_remove_of_not_covers (hpath : path.destination.isOutward = false)
    (hp : ¬path.destination.Covers p) : (s.remove path).1.node? p = s.node? p := by
  have hclear : (s.clear path.destination).node? p = s.node? p := by
    rw [node?_clear hpath, if_neg fun h => hp h.2]
  cases hremoved : s.remove path with
  | mk left failure =>
    cases failure with
    | none => rw [node?_remove hpath hremoved, if_neg hp]
    | some e =>
      unfold remove at hremoved
      split at hremoved
      · cases hremoved
        rfl
      · next place hplace =>
        cases locate_eq hplace
        split at hremoved
        · cases hremoved
          rfl
        · cases hremoved
          rfl
        · simp only at hremoved
          split at hremoved
          · cases hremoved
          · cases hremoved
            exact hclear

namespace Reaches

theorem makeFolders (h : s.Reaches home) (path : Path) : (s.makeFolders path).1.Reaches home :=
  h.of_way fun k hk => by rw [h.folders k hk, isFolder_makeFolders path (h.folders k hk)]

theorem writeIn (h : s.Reaches home) (folder : Path) (files : List (Text × κ)) :
    (s.writeIn folder files).1.Reaches home :=
  h.of_way fun _ _ => sameFolders_writeIn s folder files _

/-- The way to a folder stays when something in the folder is removed. -/
theorem remove_child (h : s.Reaches home) (hdirect : home.Direct) (hname : IsName name) :
    (s.remove (home.child name)).1.Reaches home := by
  refine h.of_way fun k hk => isFolder_congr (node?_remove_of_not_covers ?_ ?_)
  all_goals rw [Path.destination_child hname]
  · exact Path.isOutward_inside hname.2 _
  · exact hdirect k hk name

end Reaches

end Storage

end Concordance
