import Concordance.Json.Display
import Concordance.Json.Restored
import Concordance.Proofs.Pairs
import Concordance.Proofs.Table

/-!
# What stays of a value that is restored

The members of a restored object are those of a table that is built of them, so that they
stay as they are if their names are distinct and have no pairs. A value is restored as
itself if this holds of all objects in it and none of its texts has a pair.
-/
namespace Concordance.Json

theorem setMember_eq_setEntry (name : Text) (value : Json) (members : List (Text × Json)) :
    setMember name value members = Table.setEntry name value members := by
  induction members with
  | nil => rfl
  | cons m rest ih =>
    rw [setMember, Table.setEntry, ih]
    split
    · next hname => rw [hname]
    · rfl

theorem restoredItems_eq_map (items : List Json) : restoredItems items = items.map restored := by
  induction items with
  | nil => rfl
  | cons item rest ih => rw [restoredItems, ih, List.map_cons]

theorem restoredMembers_eq_foldl (members : List (Text × Json)) (read : Table Text Json) :
    restoredMembers read.entries members =
      ((members.map fun m => (paired m.1, m.2.restored)).foldl
        (fun t m => t.set m.1 m.2) read).entries := by
  induction members generalizing read with
  | nil => rfl
  | cons m rest ih =>
    rw [restoredMembers, setMember_eq_setEntry]
    exact ih (read.set (paired m.1) m.2.restored)

@[simp] theorem restored_str (t : Text) : restored (.str t) = .str (paired t) := rfl

@[simp] theorem restored_int (n : Int) : restored (.int n) = .int n := rfl

@[simp] theorem restored_arr (items : List Json) :
    restored (.arr items) = .arr (items.map restored) := by
  rw [restored, restoredItems_eq_map]

theorem restored_obj (members : List (Text × Json)) :
    restored (.obj members) =
      .obj (Table.ofList (members.map fun m => (paired m.1, m.2.restored))).entries := by
  rw [restored]
  exact congrArg obj (restoredMembers_eq_foldl members .empty)

/-- The members of an object keep their places if their names are distinct and have no pairs. -/
theorem restored_obj_of_names {members : List (Text × Json)}
    (hnames : ∀ m ∈ members, hasPair m.1 = false) (hdistinct : (members.map Prod.fst).Nodup) :
    restored (.obj members) = .obj (members.map fun m => (m.1, m.2.restored)) := by
  have hmap : (members.map fun m => (paired m.1, m.2.restored)) =
      members.map fun m => (m.1, m.2.restored) :=
    List.map_congr_left fun m hm => by rw [paired_of_hasPair_eq_false (hnames m hm)]
  have hdistinct' : ((members.map fun m => (m.1, m.2.restored)).map Prod.fst).Nodup := by
    rw [List.map_map]
    exact hdistinct
  rw [restored_obj, hmap]
  exact congrArg (fun t : Table Text Json => obj t.entries) (Table.ofList_entries ⟨_, hdistinct'⟩)

@[simp] theorem restored_ints (l : List Int) :
    restored (.arr (l.map .int)) = .arr (l.map .int) := by
  rw [restored_arr, List.map_map]
  rfl

theorem isWritable_arr (items : List Json) :
    (Json.arr items).isWritable = items.all Json.isWritable := by
  rw [Json.isWritable]
  induction items with
  | nil => rfl
  | cons v rest ih => rw [allWritable, ih, List.all_cons]

theorem isWritable_obj (members : List (Text × Json)) :
    (Json.obj members).isWritable = members.all fun m => m.2.isWritable := by
  rw [Json.isWritable]
  induction members with
  | nil => rfl
  | cons m rest ih => rw [membersWritable, ih, List.all_cons]

/-- What is read of a value that can be written can be written. -/
theorem isWritable_restored : (j : Json) → j.isWritable = true → j.restored.isWritable = true
  | .null, h | .bool _, h | .int _, h | .float _, h => h
  | .str _, _ => rfl
  | .arr items, h => by
    rw [isWritable_arr, List.all_eq_true] at h
    rw [restored_arr, isWritable_arr, List.all_map, List.all_eq_true]
    exact fun item hitem => isWritable_restored item (h item hitem)
  | .obj members, h => by
    rw [isWritable_obj, List.all_eq_true] at h
    rw [restored_obj, isWritable_obj, List.all_eq_true]
    intro m hm
    obtain ⟨m', hm', heq⟩ :=
      List.mem_map.mp (Table.mem_of_get?_ofList (Table.mem_entries_iff.mp hm))
    rw [← (Prod.mk.inj heq).2]
    exact isWritable_restored m'.2 (h m' hm')
  termination_by j => sizeOf j
  decreasing_by
  · have hsize := List.sizeOf_lt_of_mem hitem
    simp only [Json.arr.sizeOf_spec]
    omega
  · have hsize := List.sizeOf_lt_of_mem hm'
    cases m'
    simp only [Json.obj.sizeOf_spec, Prod.mk.sizeOf_spec] at hsize ⊢
    omega

end Concordance.Json
