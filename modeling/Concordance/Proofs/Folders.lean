import Concordance.Proofs.Order
import Concordance.Proofs.Writing

/-!
# Folders side by side

The folders in a folder are removed, made and filled independently of one another: what
lies in one of them stays as it is, whatever is done to another one. This rests on the
way to the folder around them, which must not lead through one of them.
-/
namespace Concordance

namespace Path

variable {place target p : Path}

/-- A place is a folder or lies inside it. -/
def Covers (target p : Path) : Prop := target.absolute = p.absolute ∧ target.names <+: p.names

instance (target p : Path) : Decidable (target.Covers p) :=
  inferInstanceAs (Decidable (_ ∧ _))

theorem covers_self (p : Path) : p.Covers p := ⟨rfl, List.prefix_rfl⟩

theorem covers_inside (p : Path) (name : Text) : p.Covers (p.inside name) :=
  ⟨rfl, List.prefix_append _ _⟩

/-- What lies under a name in a folder lies under no other name in it. -/
theorem eq_of_covers {name name' : Text} (h : (place.inside name).Covers p)
    (h' : (place.inside name').Covers p) : name = name' := by
  have hlength : (place.inside name).names.length = (place.inside name').names.length := by
    simp [inside]
  have hnames := (List.prefix_of_prefix_length_le h.2 h'.2 hlength.le).eq_of_length hlength
  exact (List.append_inj' hnames rfl).2 |> List.cons.inj |>.1

theorem isOutward_inside {name : Text} (h : name ≠ upward) (place : Path) :
    (place.inside name).isOutward = false := by
  simp [isOutward, inside, h]

theorem isWithin_iff (h : target.isOutward = false) :
    target.isWithin p = true ↔ target.Covers p := by
  simp [isWithin, h, Covers]

/-- What lies in a folder that does not lie outward does not lie outward. -/
theorem Covers.isOutward (hc : target.Covers p) (h : target.isOutward = false) :
    p.isOutward = false := by
  rw [Path.isOutward, List.all_eq_false] at h ⊢
  obtain ⟨name, hname, hdown⟩ := h
  exact ⟨name, hc.2.subset hname, hdown⟩

theorem destination_child {name : Text} (h : Storage.IsName name) (home : Path) :
    (home.child name).destination = home.destination.inside name := by
  rw [child_eq_inside h, destination, inside, List.foldl_append, List.foldl_cons, lead, if_neg h.2]
  rfl

theorem parent_inside (place : Path) (name : Text) : (place.inside name).parent = place := by
  simp [parent, inside]

theorem eq_inside_of_getLast? {name : Text} (h : p.names.getLast? = some name) :
    p = p.parent.inside name := by
  rw [parent, inside, List.dropLast_append_getLast? name h]

theorem upTo_length (p : Path) : p.upTo p.names.length = p := by
  rw [upTo, List.take_length]

theorem upTo_inside {k : Nat} (hk : k ≤ place.names.length) (name : Text) :
    (place.inside name).upTo k = place.upTo k := by
  rw [upTo, inside, List.take_append_of_le_length hk]
  rfl

/-- The way to a folder leads through nothing that lies in the folder. -/
def Direct (home : Path) : Prop :=
  ∀ k ≤ home.names.length, ∀ name, ¬(home.destination.inside name).Covers (home.upTo k).destination

theorem destination_of_plain (h : ∀ name ∈ p.names, name ≠ upward) : p.destination = p := by
  have hlead {names : List Text} (hnames : ∀ name ∈ names, name ≠ upward) (here : Path) :
      names.foldl lead here = ⟨here.absolute, here.names ++ names⟩ := by
    induction names generalizing here with
    | nil => simp
    | cons name rest ih =>
      obtain ⟨hname, hrest⟩ := List.forall_mem_cons.mp hnames
      rw [List.foldl_cons, lead, if_neg hname, ih hrest]
      simp [inside]
  rw [destination, hlead h]
  rfl

/-- The way along a path that never leads back is direct. -/
theorem direct_of_plain {home : Path} (h : ∀ name ∈ home.names, name ≠ upward) : home.Direct := by
  intro k _ name hcovers
  have hway : ∀ name ∈ (home.upTo k).names, name ≠ upward :=
    fun name hname => h name (List.mem_of_mem_take hname)
  rw [destination_of_plain h, destination_of_plain hway] at hcovers
  have hlength := hcovers.2.length_le
  simp only [inside, upTo, List.length_append, List.length_singleton, List.length_take] at hlength
  omega

theorem direct_child {folder : Path} (h : ∀ part ∈ folder.names, part ≠ upward) {name : Text}
    (hname : Storage.IsName name) : (folder.child name).Direct := by
  refine direct_of_plain fun part hpart => ?_
  rw [child_eq_inside hname, inside, List.mem_append, List.mem_singleton] at hpart
  obtain hpart | rfl := hpart
  · exact h part hpart
  · exact hname.2

/-- A folder takes a name if something in it can have that name. -/
def Takes (home : Path) (name : Text) : Prop :=
  Storage.IsFileName name ∧ home.fits name = true

/-- A folder takes a name if something fits into what has the name. -/
theorem takes_of_fits {home : Path} {name inner : Text} (hname : Storage.IsFileName name)
    (hinner : Storage.IsName inner) (h : (home.child name).fits inner = true) :
    home.Takes name := by
  have hlong : (home.child name).isTooLong = false := by
    refine Bool.eq_false_iff.mpr fun hlong => ?_
    rw [fits, child_eq_inside hinner, isTooLong_inside hlong inner] at h
    cases h
  refine ⟨hname, ?_⟩
  rw [fits, hlong]
  rfl

end Path

namespace Storage

variable {κ : Type} {s s' s'' : Storage κ} {home p : Path} {name other : Text}

theorem isFolder_iff : s.isFolder p = true ↔ s.node? p = some .folder := by
  rw [isFolder]
  cases s.node? p with
  | none => simp
  | some node => cases node <;> simp

theorem isFolder_congr (h : s'.node? p = s.node? p) : s'.isFolder p = s.isFolder p := by
  rw [isFolder, isFolder, h]

theorem node?_of_not_isOutward (hp : p.isOutward = false) : s.node? p = s.nodes.get? p := by
  rw [node?, hp]
  cases s.nodes.get? p <;> rfl

/-- In a storage that is still empty nothing is found but the folders that everything is in. -/
theorem node?_empty (hp : p.isOutward = false) : (empty : Storage κ).node? p = none := by
  rw [node?_of_not_isOutward hp]
  rfl

theorem contains_empty {path : Path} (hpath : path.destination.isOutward = false)
    (hlong : ∀ e, (empty : Storage κ).contains path ≠ .error e) :
    (empty : Storage κ).contains path = .ok false := by
  unfold contains at hlong ⊢
  split at hlong
  · next place hplace => rw [locate_eq hplace, node?_empty hpath]; rfl
  · exact absurd rfl (hlong _)
  · rfl

/-- A folder is there, and so are the folders on the way to it. -/
structure Reaches (s : Storage κ) (home : Path) : Prop where
  located : s.locate home = .ok home.destination
  folders : ∀ k ≤ home.names.length, s.isFolder (home.upTo k).destination = true

namespace Reaches

theorem isFolder (h : s.Reaches home) : s.isFolder home.destination = true := by
  have hlast := h.folders _ (Nat.le_refl _)
  rwa [home.upTo_length] at hlast

theorem of_way (h : s.Reaches home)
    (hway : ∀ k ≤ home.names.length,
      s'.isFolder (home.upTo k).destination = s.isFolder (home.upTo k).destination) :
    s'.Reaches home where
  located := locate_congr (fun k hk => hway k (Nat.le_of_lt hk)) h.located
  folders k hk := by rw [hway k hk, h.folders k hk]

theorem locate_child (h : s.Reaches home) (hname : home.Takes name) :
    s.locate (home.child name) = .ok (home.destination.inside name) :=
  locate_child_of_folder hname.1 h.located hname.2

theorem contains_child (h : s.Reaches home) (hname : home.Takes name) :
    s.contains (home.child name) = .ok (s.node? (home.destination.inside name)).isSome :=
  contains_of_locate (h.locate_child hname)

theorem contains (h : s.Reaches home) : s.contains home = .ok true := by
  rw [contains_of_locate h.located, isFolder_iff.mp h.isFolder]
  rfl

end Reaches

/-- Nothing is there in a folder that is not there. -/
theorem contains_child_of_missing (h : s.contains home = .ok false) (hname : home.Takes name)
    (hnone : s.node? (home.destination.inside name) = none) :
    s.contains (home.child name) = .ok false := by
  rw [contains] at h ⊢
  rw [locate_child_eq hname.1 hname.2]
  cases hplace : s.locate home with
  | ok place =>
    rw [locate_eq hplace]
    simp [Except.map, hnone]
  | error e =>
    rw [hplace] at h
    exact h

/-- What lies in a folder under other names than the given one has stayed as it was. -/
def SameElsewhere (home : Path) (name : Text) (s s' : Storage κ) : Prop :=
  ∀ other ≠ name, ∀ p, (home.destination.inside other).Covers p → s'.node? p = s.node? p

namespace SameElsewhere

theorem refl (home : Path) (name : Text) (s : Storage κ) : SameElsewhere home name s s :=
  fun _ _ _ _ => rfl

theorem trans (h : SameElsewhere home name s s') (h' : SameElsewhere home name s' s'') :
    SameElsewhere home name s s'' :=
  fun other hother p hp => (h' other hother p hp).trans (h other hother p hp)

theorem of_covers (h : ∀ p, ¬(home.destination.inside name).Covers p → s'.node? p = s.node? p) :
    SameElsewhere home name s s' :=
  fun _ hother p hp => h p fun hname => hother (Path.eq_of_covers hp hname)

theorem node?_inside (h : SameElsewhere home name s s') (hother : other ≠ name) :
    s'.node? (home.destination.inside other) = s.node? (home.destination.inside other) :=
  h other hother _ (Path.covers_self _)

/-- A file in a folder under another name is still read. -/
theorem read (h : SameElsewhere home name s s') (hs : s.Reaches home) (hs' : s'.Reaches home)
    (hother : other ≠ name) (hplain : home.Takes other) {file : Text} (hfile : IsFileName file)
    {content : κ} (hread : s.read ((home.child other).child file) = .ok content) :
    s'.read ((home.child other).child file) = .ok content := by
  obtain ⟨place, hplace, hnode⟩ := node?_of_read hread
  have hfits : (home.child other).fits file = true := by
    simp [Path.fits, (locate_eq_ok_iff.mp hplace).2.1]
  rw [locate_child_of_folder hfile (hs.locate_child hplain) hfits] at hplace
  cases hplace
  have hcovers := Path.covers_inside (home.destination.inside other) file
  rw [Storage.read, locate_child_of_folder hfile (hs'.locate_child hplain) hfits, ok_bind,
    h other hother _ hcovers, hnode]

end SameElsewhere

theorem node?_filterKeys (s : Storage κ) (keep : Path → Bool) (p : Path) :
    (⟨s.nodes.filterKeys keep⟩ : Storage κ).node? p =
      if keep p then s.node? p else if p.isOutward then some .folder else none := by
  rw [node?, node?, Table.get?_filterKeys]
  cases keep p <;> rfl

section Removing

variable {target path : Path}

theorem node?_clear (htarget : target.isOutward = false) (p : Path) :
    (s.clear target).node? p = if p ≠ target ∧ target.Covers p then none else s.node? p := by
  rw [clear, node?_filterKeys]
  by_cases hcovers : target.Covers p
  · have hwithin := (Path.isWithin_iff htarget).mpr hcovers
    by_cases hp : p = target <;> simp [hp, hwithin, hcovers, hcovers.isOutward htarget]
  · have hwithin := Bool.eq_false_iff.mpr fun h => hcovers ((Path.isWithin_iff htarget).mp h)
    simp [hwithin, hcovers]

/-- Removing a folder takes away the folder and what lies in it, and nothing else. -/
theorem node?_remove (hpath : path.destination.isOutward = false)
    (h : s.remove path = (s', none)) (p : Path) :
    s'.node? p = if path.destination.Covers p then none else s.node? p := by
  unfold remove at h
  split at h
  · cases h
  · next place hplace =>
    cases locate_eq hplace
    split at h
    · cases h
    · cases h
    · simp only at h
      split at h
      · cases h
        rw [node?_filterKeys, node?_clear hpath]
        by_cases hp : p = path.destination
        · simp [hp, hpath, Path.covers_self]
        · simp [hp]
      · cases h

theorem Emptied.node? (hname : IsName name) (h : s.Emptied (home.child name) s')
    (hp : ¬(home.destination.inside name).Covers p) : s'.node? p = s.node? p := by
  have hdestination := Path.destination_child hname home
  obtain rfl | hremoved := h
  · rfl
  · rw [node?_remove (hdestination ▸ Path.isOutward_inside hname.2 _) hremoved, hdestination,
      if_neg hp]

/-- A folder is removed when its own place is not needed on the way to it. -/
theorem exists_remove (hpath : path.destination.isOutward = false)
    (hway : ∀ k < path.names.length, ¬path.destination.Covers (path.upTo k).destination)
    (hplace : s.locate path = .ok path.destination)
    (hfolder : s.isFolder path.destination = true) : ∃ s', s.remove path = (s', none) := by
  have hstill : (s.clear path.destination).locate path = .ok path.destination := by
    refine locate_congr (fun k hk => isFolder_congr ?_) hplace
    rw [node?_clear hpath, if_neg fun h => hway k hk h.2]
  rw [remove, hplace]
  simp only [isFolder_iff.mp hfolder, hstill]
  exact ⟨_, rfl⟩

/-- A folder in another folder is removed, and what is beside it stays. -/
theorem Reaches.remove (h : s.Reaches home) (hdirect : home.Direct) (hname : home.Takes name)
    (hfolder : s.isFolder (home.destination.inside name) = true) :
    ∃ s', s.remove (home.child name) = (s', none) ∧ s'.Reaches home ∧
      s'.node? (home.destination.inside name) = none ∧ SameElsewhere home name s s' := by
  have hdestination := Path.destination_child hname.1.1 home
  have houtward : (home.child name).destination.isOutward = false :=
    hdestination ▸ Path.isOutward_inside hname.1.1.2 _
  have hway : ∀ k < (home.child name).names.length,
      ¬(home.child name).destination.Covers ((home.child name).upTo k).destination := by
    intro k hk
    rw [Path.child_eq_inside hname.1.1, Path.inside, List.length_append] at hk
    rw [hdestination, Path.child_eq_inside hname.1.1, Path.upTo_inside (Nat.le_of_lt_succ hk)]
    exact hdirect k (Nat.le_of_lt_succ hk) name
  have hplace : s.locate (home.child name) = .ok (home.child name).destination := by
    rw [h.locate_child hname, hdestination]
  obtain ⟨s', hremoved⟩ := exists_remove houtward hway hplace (hdestination ▸ hfolder)
  have hemptied : s.Emptied (home.child name) s' := .inr hremoved
  refine ⟨s', hremoved, h.of_way fun k hk => ?_, ?_, .of_covers fun p => hemptied.node? hname.1.1⟩
  · exact isFolder_congr (hemptied.node? hname.1.1 (hdirect k hk name))
  · rw [node?_remove houtward hremoved, if_pos (hdestination ▸ Path.covers_self _)]

end Removing

section Making

/-- All that has changed are folders that are new, each at one of the given places. -/
def OnlyMakes (s s' : Storage κ) (places : Path → Prop) : Prop :=
  ∀ p, s'.node? p = s.node? p ∨ places p ∧ s.node? p = none ∧ s'.node? p = some .folder

theorem OnlyMakes.isFolder {places : Path → Prop} (h : OnlyMakes s s' places)
    (hp : s.isFolder p = true) : s'.isFolder p = true := by
  obtain hsame | ⟨-, -, hfolder⟩ := h p
  · rw [isFolder_congr hsame, hp]
  · exact isFolder_iff.mpr hfolder

theorem OnlyMakes.trans {places places' : Path → Prop} (h : OnlyMakes s s' places)
    (h' : OnlyMakes s' s'' places') : OnlyMakes s s'' fun p => places p ∨ places' p := by
  intro p
  obtain hsame | ⟨hp, hnone, hfolder⟩ := h p
  · obtain hsame' | ⟨hp, hnone, hfolder⟩ := h' p
    · exact .inl (hsame'.trans hsame)
    · exact .inr ⟨.inr hp, hsame ▸ hnone, hfolder⟩
  · obtain hsame' | ⟨-, hnone', -⟩ := h' p
    · exact .inr ⟨.inl hp, hnone, hsame'.trans hfolder⟩
    · rw [hfolder] at hnone'
      cases hnone'

theorem makeFolder_eq_none {last : Bool} {path : Path} (h : s.makeFolder last path = (s', none)) :
    s.locate path = .ok path.destination ∧ s'.isFolder path.destination = true ∧
      OnlyMakes s s' (· = path.destination) := by
  unfold makeFolder at h
  split at h
  · cases h
  · next place hplace =>
    cases locate_eq hplace
    refine ⟨hplace, ?_⟩
    split at h
    · next hnode =>
      cases h
      exact ⟨isFolder_iff.mpr hnode, fun _ => .inl rfl⟩
    · cases h
    · next hnode =>
      cases h
      have hput (p : Path) := s.node?_put path.destination .folder p
      refine ⟨isFolder_iff.mpr (by rw [hput, if_pos rfl]), fun p => ?_⟩
      rw [hput]
      by_cases hp : p = path.destination
      · rw [if_pos hp, hp]
        exact .inr ⟨rfl, hnode, rfl⟩
      · exact .inl (if_neg hp)

/-- The next folder on the way is made where the way up to it is there. -/
theorem Reaches.makeFolder {path : Path} {k : Nat} (h : s.Reaches (path.upTo k))
    (hk : k < path.names.length) {last : Bool}
    (hmade : s.makeFolder last (path.upTo (k + 1)) = (s', none)) :
    s'.Reaches (path.upTo (k + 1)) := by
  obtain ⟨hplace, hfolder, honly⟩ := makeFolder_eq_none hmade
  have hlength {n : Nat} (hn : n ≤ path.names.length) : (path.upTo n).names.length = n := by
    rw [Path.upTo, List.length_take, Nat.min_eq_left hn]
  have hupTo {n j : Nat} (hj : j ≤ n) : (path.upTo n).upTo j = path.upTo j := by
    rw [Path.upTo, Path.upTo, List.take_take, Nat.min_eq_left hj, Path.upTo]
  have hbefore {j : Nat} (hj : j ≤ k) : s.isFolder (path.upTo j).destination = true := by
    have hj' := h.folders j (by rw [hlength hk.le]; exact hj)
    rwa [hupTo hj] at hj'
  refine ⟨locate_congr (fun j hj => ?_) hplace, fun j hj => ?_⟩
  · rw [hlength hk] at hj
    have hfolder := hbefore (Nat.le_of_lt_succ hj)
    rw [hupTo hj.le, hfolder, honly.isFolder hfolder]
  · rw [hlength hk] at hj
    rw [hupTo hj]
    obtain hj | rfl := Nat.le_succ_iff.mp hj
    · exact honly.isFolder (hbefore hj)
    · exact hfolder

/-- All folders on the way are made, one after the other, and nothing else is. -/
theorem Reaches.makeEach {path : Path} {k m : Nat} (h : s.Reaches (path.upTo k))
    (hm : k + m ≤ path.names.length)
    (hmade : s.makeEach ((List.range' k m).map fun n => path.upTo (n + 1)) = (s', none)) :
    s'.Reaches (path.upTo (k + m)) ∧
      OnlyMakes s s' fun p => ∃ n ≤ path.names.length, p = (path.upTo n).destination := by
  induction m generalizing s k with
  | zero =>
    cases hmade
    exact ⟨h, fun _ => .inl rfl⟩
  | succ m ih =>
    rw [List.range'_succ, List.map_cons, Storage.makeEach] at hmade
    split at hmade
    · next made hfirst =>
      have hk : k < path.names.length := by omega
      obtain ⟨hreaches, honly⟩ := ih (h.makeFolder hk hfirst) (by omega) hmade
      rw [Nat.add_right_comm] at hreaches
      refine ⟨hreaches, fun p => ?_⟩
      obtain hsame | ⟨rfl | hp, hnone, hfolder⟩ := ((makeFolder_eq_none hfirst).2.2.trans honly) p
      · exact .inl hsame
      · exact .inr ⟨⟨k + 1, hk, rfl⟩, hnone, hfolder⟩
      · exact .inr ⟨hp, hnone, hfolder⟩
    · cases hmade

/-- A folder that has been made is there, and nothing else has changed. -/
theorem reaches_of_makeFolders {path : Path} (hroot : s.isFolder (path.upTo 0).destination = true)
    (h : s.makeFolders path = (s', none)) :
    s'.Reaches path ∧
      OnlyMakes s s' fun p => ∃ n ≤ path.names.length, p = (path.upTo n).destination := by
  have hstart : s.Reaches (path.upTo 0) := by
    refine ⟨?_, fun k hk => ?_⟩
    · obtain ⟨absolute, names⟩ := path
      cases absolute <;> rfl
    · rw [Nat.le_zero.mp hk]
      exact hroot
  unfold makeFolders at h
  split at h
  · cases h
  · split at h
    · cases h
    · rw [Path.ancestry, List.range_eq_range'] at h
      have hmade := hstart.makeEach (Nat.le_of_eq (Nat.zero_add _)) h
      rwa [Nat.zero_add, Path.upTo_length] at hmade

/-- A folder in another folder has been made anew and filled: the way to the folder around it is
there, and the folders beside it are as they were. -/
structure Renewed (home : Path) (name : Text) (s s' : Storage κ) : Prop where
  reaches : s'.Reaches home
  folder : s'.isFolder (home.destination.inside name) = true
  elsewhere : SameElsewhere home name s s'

/-- A folder that has been made is there, with the folders on the way to it. -/
theorem renewed_of_makeFolders (hdirect : home.Direct) (hname : home.Takes name)
    (hroot : s.isFolder (home.upTo 0).destination = true)
    (h : s.makeFolders (home.child name) = (s', none)) : Renewed home name s s' := by
  have hchild := Path.child_eq_inside hname.1.1 home
  have hdestination := Path.destination_child hname.1.1 home
  have hlength : (home.child name).names.length = home.names.length + 1 := by
    simp [hchild, Path.inside]
  have hupTo {k : Nat} (hk : k ≤ home.names.length) : (home.child name).upTo k = home.upTo k := by
    rw [hchild, Path.upTo_inside hk]
  rw [← hupTo (Nat.zero_le _)] at hroot
  obtain ⟨hreaches, honly⟩ := reaches_of_makeFolders hroot h
  refine ⟨⟨?_, fun k hk => ?_⟩, ?_, fun other hother p hp => ?_⟩
  · have hplace := hreaches.located
    rw [locate_child_eq hname.1 hname.2, map_eq_ok_iff] at hplace
    obtain ⟨around, haround, -⟩ := hplace
    rw [haround, locate_eq haround]
  · rw [← hupTo hk]
    exact hreaches.folders k (by omega)
  · rw [← hdestination]
    exact hreaches.isFolder
  · obtain hsame | ⟨⟨k, hk, rfl⟩, -, -⟩ := honly p
    · exact hsame
    · obtain hkhome | hklast := Nat.le_succ_iff.mp (hlength ▸ hk)
      · rw [hupTo hkhome] at hp
        exact absurd hp (hdirect k hkhome other)
      · rw [hklast, ← Nat.add_one, ← hlength, Path.upTo_length, hdestination] at hp
        exact absurd (Path.eq_of_covers hp (Path.covers_self _)) hother

/-- A folder is renewed that is made where whatever was there has been removed. -/
theorem Emptied.renewed (h : s.Emptied (home.child name) s') (hdirect : home.Direct)
    (hname : home.Takes name) (hroot : s.isFolder (home.upTo 0).destination = true)
    (hmade : s'.makeFolders (home.child name) = (s'', none)) : Renewed home name s s'' := by
  have hroot' : s'.isFolder (home.upTo 0).destination = true := by
    rw [isFolder_congr (h.node? hname.1.1 (hdirect 0 (Nat.zero_le _) name)), hroot]
  obtain ⟨hreaches, hfolder, helsewhere⟩ := renewed_of_makeFolders hdirect hname hroot' hmade
  exact ⟨hreaches, hfolder, .trans (.of_covers fun p => h.node? hname.1.1) helsewhere⟩

end Making

section Filling

theorem node?_writeIn {folder : Path} {files : List (Text × κ)}
    (hp : ¬folder.destination.Covers p) : (s.writeIn folder files).1.node? p = s.node? p := by
  cases hplace : s.locate folder with
  | error e => rw [writeIn, hplace]
  | ok place =>
    rw [writeIn_eq hplace, locate_eq hplace]
    refine node?_putFiles_of_ne fun f _ heq => hp ?_
    rw [heq]
    exact Path.covers_inside _ _

theorem Renewed.writeIn (h : Renewed home name s s') (hname : IsName name)
    (files : List (Text × κ)) : Renewed home name s (s'.writeIn (home.child name) files).1 := by
  have hsame := sameFolders_writeIn s' (home.child name) files
  refine ⟨h.reaches.of_way fun k _ => hsame _, by rw [hsame, h.folder], h.elsewhere.trans ?_⟩
  refine .of_covers fun p hp => node?_writeIn ?_
  rwa [Path.destination_child hname]

end Filling

section Listing

/-- An entry is listed under a name if its path is the one of that name in the folder. -/
theorem listed_iff {place : Path} {p : Node κ → Bool} {e : Path × Node κ} :
    (if (!e.1.isOutward && e.1.parent = place && p e.2) = true then e.1.names.getLast? else none) =
        some name ↔
      (place.inside name).isOutward = false ∧ e.1 = place.inside name ∧ p e.2 = true := by
  simp only [Option.ite_none_right_eq_some, Bool.and_eq_true, Bool.not_eq_true',
    decide_eq_true_eq]
  constructor
  · rintro ⟨⟨⟨houtward, rfl⟩, hp⟩, hname⟩
    have heq := Path.eq_inside_of_getLast? hname
    exact ⟨heq ▸ houtward, heq, hp⟩
  · rintro ⟨houtward, heq, hp⟩
    rw [heq]
    exact ⟨⟨⟨houtward, Path.parent_inside place name⟩, hp⟩, List.getLast?_concat⟩

/-- What lies in a folder and has a property is listed, each under its name. -/
theorem exists_names (h : s.Reaches home) (p : Node κ → Bool) :
    ∃ names, names.Nodup ∧
      (∀ name, name ∈ names ↔ (home.destination.inside name).isOutward = false ∧
        ∃ node, s.node? (home.destination.inside name) = some node ∧ p node = true) ∧
      s.names home p = .ok (sortBy (fun a b => !(b < a : Bool)) names) := by
  rw [Storage.names, h.located, ok_bind, isFolder_iff.mp h.isFolder]
  refine ⟨_, ?_, fun name => ?_, rfl⟩
  all_goals rw [List.filterMap_filter]
  · refine (List.pairwise_map.mp s.nodes.distinct).filterMap _ ?_
    intro e e' hne name he name' he' heq
    rw [listed_iff] at he he'
    rw [he.2.1, he'.2.1, heq] at hne
    exact hne rfl
  · rw [List.mem_filterMap]
    simp only [listed_iff]
    constructor
    · rintro ⟨⟨q, node⟩, hmem, houtward, rfl, hp⟩
      refine ⟨houtward, node, ?_, hp⟩
      rw [node?_of_not_isOutward houtward]
      exact Table.mem_entries_iff.mp hmem
    · rintro ⟨houtward, node, hnode, hp⟩
      rw [node?_of_not_isOutward houtward] at hnode
      exact ⟨(_, node), Table.mem_entries_iff.mpr hnode, houtward, rfl, hp⟩

/-- The folders in a folder are listed, each under its name. -/
theorem exists_folders (h : s.Reaches home) :
    ∃ names, names.Nodup ∧
      (∀ name, name ∈ names ↔ (home.destination.inside name).isOutward = false ∧
        s.isFolder (home.destination.inside name) = true) ∧
      s.folders home = .ok (sortBy (fun a b => !(b < a : Bool)) names) := by
  refine (exists_names h _).imp fun names ⟨hnodup, hnames, heq⟩ => ⟨hnodup, fun name => ?_, heq⟩
  rw [hnames, isFolder]
  refine and_congr_right fun _ => ?_
  cases s.node? (home.destination.inside name) with
  | none => simp
  | some node => cases node <;> simp

theorem folders_eq (h : s.Reaches home) {names : List Text} (hnodup : names.Nodup)
    (hnames : ∀ name, name ∈ names ↔ (home.destination.inside name).isOutward = false ∧
      s.isFolder (home.destination.inside name) = true) :
    s.folders home = .ok (sortBy (fun a b => !(b < a : Bool)) names) := by
  obtain ⟨listed, hlisted, hmem, heq⟩ := exists_folders h
  rw [heq]
  refine congrArg Except.ok (sortBy_text_eq_of_perm ?_)
  exact (List.perm_ext_iff_of_nodup hlisted hnodup).mpr fun name => by rw [hmem, hnames]

/-- Where the same names have folders, the same names are listed. -/
theorem folders_congr (h : s.Reaches home) (h' : s'.Reaches home)
    (hsame : ∀ name, s'.isFolder (home.destination.inside name) =
      s.isFolder (home.destination.inside name)) : s'.folders home = s.folders home := by
  obtain ⟨names, hnodup, hnames, heq⟩ := exists_folders h
  rw [heq, folders_eq h' hnodup fun name => by rw [hnames, hsame]]

end Listing

end Storage

end Concordance
