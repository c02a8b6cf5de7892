import Concordance.Proofs.MadeFolders

/-!
# Folders that are made again

To make folders brings up new folders on the way to a path and changes nothing else, also
when it fails midway. So whatever has been there is still reached, and to make them again
does what it did the first time and leaves nothing new.
-/
namespace Concordance.Storage

variable {κ : Type} {s s' : Storage κ} {path : Path} {places places' : Path → Prop}

theorem OnlyMakes.refl (s : Storage κ) (places : Path → Prop) : OnlyMakes s s places :=
  fun _ => .inl rfl

theorem OnlyMakes.weaken (h : OnlyMakes s s' places) (hplaces : ∀ p, places p → places' p) :
    OnlyMakes s s' places' :=
  fun p => (h p).imp id fun ⟨hp, hnew⟩ => ⟨hplaces p hp, hnew⟩

/-- What has been there stays. -/
theorem OnlyMakes.node? (h : OnlyMakes s s' places) {p : Path} (hp : s.node? p ≠ none) :
    s'.node? p = s.node? p := by
  obtain hsame | ⟨-, hnone, -⟩ := h p
  · exact hsame
  · exact absurd hnone hp

/-- A path is followed as before where something has been at every step of it. -/
theorem OnlyMakes.locate (h : OnlyMakes s s' places)
    (hway : ∀ k < path.names.length, s.node? (path.upTo k).destination ≠ none) {place : Path}
    (hplace : s.locate path = .ok place) : s'.locate path = .ok place :=
  locate_congr (fun k hk => isFolder_congr (h.node? (hway k hk))) hplace

section Making

theorem onlyMakes_makeFolder (s : Storage κ) (last : Bool) (path : Path) :
    OnlyMakes s (s.makeFolder last path).1 (· = path.destination) := by
  unfold makeFolder
  split
  · exact .refl s _
  · next place hplace =>
    cases locate_eq hplace
    split
    · exact .refl s _
    · exact .refl s _
    · next hnone =>
      intro p
      rw [node?_put]
      by_cases hp : p = path.destination
      · rw [if_pos hp]
        exact .inr ⟨hp, hp ▸ hnone, rfl⟩
      · exact .inl (if_neg hp)

theorem onlyMakes_makeEach (s : Storage κ) (paths : List Path) :
    OnlyMakes s (s.makeEach paths).1 fun p => ∃ q ∈ paths, p = q.destination := by
  induction paths generalizing s with
  | nil => exact .refl s _
  | cons path rest ih =>
    have hfirst := onlyMakes_makeFolder s rest.isEmpty path
    rw [makeEach]
    split
    · next made hmade =>
      rw [hmade] at hfirst
      refine (hfirst.trans (ih made)).weaken ?_
      rintro p (rfl | ⟨q, hq, rfl⟩)
      · exact ⟨path, List.mem_cons_self, rfl⟩
      · exact ⟨q, List.mem_cons_of_mem _ hq, rfl⟩
    · next made e hmade =>
      rw [hmade] at hfirst
      refine hfirst.weaken ?_
      rintro p rfl
      exact ⟨path, List.mem_cons_self, rfl⟩

/-- Folders on the way to a path are all that is new when its folders are made. -/
theorem onlyMakes_makeFolders (s : Storage κ) (path : Path) :
    OnlyMakes s (s.makeFolders path).1 fun p =>
      ∃ n ≤ path.names.length, p = (path.upTo n).destination := by
  unfold makeFolders
  split
  · exact .refl s _
  · split
    · exact .refl s _
    · refine (onlyMakes_makeEach s path.ancestry).weaken ?_
      rintro p ⟨q, hq, rfl⟩
      obtain ⟨n, hn, rfl⟩ := List.mem_map.mp hq
      exact ⟨n + 1, List.mem_range.mp hn, rfl⟩

/-- Where the way is there up to some folder, only what comes after it is new. -/
theorem onlyMakes_makeFolders_below {m : Nat} (hs : s.Reaches (path.upTo m))
    (hm : m ≤ path.names.length) :
    OnlyMakes s (s.makeFolders path).1 fun p =>
      ∃ n, m < n ∧ n ≤ path.names.length ∧ p = (path.upTo n).destination := by
  intro p
  obtain hsame | ⟨⟨n, hn, rfl⟩, hnone, hnew⟩ := onlyMakes_makeFolders s path p
  · exact .inl hsame
  · refine .inr ⟨⟨n, ?_, hn, rfl⟩, hnone, hnew⟩
    by_contra hle
    have hle : n ≤ m := Nat.le_of_not_lt hle
    have hfolder := hs.folders n (by rwa [Path.length_upTo hm])
    rw [Path.upTo_upTo hle, isFolder_iff, hnone] at hfolder
    cases hfolder

/-- What cannot be made changes nothing. -/
theorem makeFolder_of_failure {last : Bool} {e : Failure}
    (h : s.makeFolder last path = (s', some e)) : s' = s := by
  unfold makeFolder at h
  split at h
  · cases h
    rfl
  · split at h <;> cases h
    rfl

/-- A folder that is found is not made. -/
theorem makeFolder_of_folder {last : Bool} (hplace : s.locate path = .ok path.destination)
    (hfolder : s.isFolder path.destination = true) : s.makeFolder last path = (s, none) := by
  simp only [makeFolder, hplace, isFolder_iff.mp hfolder]

theorem makeEach_cons_of_made {rest : List Path}
    (h : s.makeFolder rest.isEmpty path = (s', none)) :
    s.makeEach (path :: rest) = s'.makeEach rest := by
  rw [makeEach, h]

theorem makeEach_cons_of_failure {rest : List Path} {e : Failure}
    (h : s.makeFolder rest.isEmpty path = (s', some e)) :
    s.makeEach (path :: rest) = (s', some e) := by
  rw [makeEach, h]

end Making

/-- The first `k` folders on the way to a path are found where they should be. -/
def Paved (s : Storage κ) (path : Path) (k : Nat) : Prop :=
  ∀ j < k, s.locate (path.upTo (j + 1)) = .ok (path.upTo (j + 1)).destination ∧
    s.isFolder (path.upTo (j + 1)).destination = true

namespace Paved

variable {k : Nat}

/-- There is something at every step of a way that is paved. The first step is outside of
everything. -/
theorem node? (h : s.Paved path k) {j : Nat} (hj : j ≤ k) :
    s.node? (path.upTo j).destination ≠ none := by
  cases j with
  | zero =>
    have houtward : (path.upTo 0).destination.isOutward = true := rfl
    rw [Storage.node?, houtward]
    split <;> simp
  | succ j =>
    rw [isFolder_iff.mp (h j hj).2]
    simp

theorem onlyMakes (h : s.Paved path k) (hk : k ≤ path.names.length)
    (hs : OnlyMakes s s' places) : s'.Paved path k := by
  intro j hj
  obtain ⟨hplace, hfolder⟩ := h j hj
  refine ⟨hs.locate (fun i hi => ?_) hplace, hs.isFolder hfolder⟩
  rw [Path.length_upTo (hj.trans_le hk)] at hi
  rw [Path.upTo_upTo hi.le]
  exact h.node? (Nat.le_of_lt_succ hi |>.trans hj.le)

/-- The way is paved one folder further where the next folder is made. -/
theorem makeFolder (h : s.Paved path k) (hk : k < path.names.length) {last : Bool}
    (hmade : s.makeFolder last (path.upTo (k + 1)) = (s', none)) : s'.Paved path (k + 1) := by
  obtain ⟨hplace, hfolder, honly⟩ := makeFolder_eq_none hmade
  intro j hj
  obtain hj | rfl := Nat.lt_succ_iff_lt_or_eq.mp hj
  · exact h.onlyMakes hk.le honly j hj
  · refine ⟨honly.locate (fun i hi => ?_) hplace, hfolder⟩
    rw [Path.length_upTo hk] at hi
    rw [Path.upTo_upTo hi.le]
    exact h.node? (Nat.le_of_lt_succ hi)

/-- Whatever folders could be made on the rest of the way are found when they are made again. -/
theorem makeEach_again {m : Nat} (h : s.Paved path k) (hm : k + m ≤ path.names.length) :
    let rest := (List.range' k m).map fun n => path.upTo (n + 1)
    (s.makeEach rest).1.makeEach rest = s.makeEach rest := by
  induction m generalizing s k with
  | zero => rfl
  | succ m ih =>
    intro rest
    have hrest : rest = path.upTo (k + 1) ::
        (List.range' (k + 1) m).map fun n => path.upTo (n + 1) := by
      simp only [rest, List.range'_succ, List.map_cons]
    have hk : k < path.names.length := by omega
    rw [hrest]
    generalize hothers : (List.range' (k + 1) m).map (fun n => path.upTo (n + 1)) = others
    cases hmade : s.makeFolder others.isEmpty (path.upTo (k + 1)) with
    | mk made failure =>
      cases failure with
      | none =>
        have hpaved := h.makeFolder hk hmade
        obtain ⟨hplace, hfolder⟩ :=
          hpaved.onlyMakes hk (onlyMakes_makeEach made others) k (Nat.lt_succ_self k)
        have hagain := ih hpaved (by omega)
        rw [hothers] at hagain
        rw [makeEach_cons_of_made hmade,
          makeEach_cons_of_made (makeFolder_of_folder hplace hfolder), hagain]
      | some e =>
        cases makeFolder_of_failure hmade
        rw [makeEach_cons_of_failure hmade, makeEach_cons_of_failure hmade]

end Paved

/-- To make folders again does what it did the first time. -/
theorem makeFolders_again (s : Storage κ) (path : Path) :
    (s.makeFolders path).1.makeFolders path = s.makeFolders path := by
  unfold makeFolders
  split
  · rfl
  · split
    · rfl
    · have hstart : s.Paved path 0 := fun j hj => absurd hj (Nat.not_lt_zero j)
      have hagain := hstart.makeEach_again (Nat.le_of_eq (Nat.zero_add path.names.length))
      rwa [← List.range_eq_range'] at hagain

end Concordance.Storage
