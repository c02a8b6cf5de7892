import Concordance.Proofs.Persistence
import Concordance.Proofs.Session

/-!
# What is stored in the home of an index

The home of an index has a folder for each name of a table, and under each of them what the
table says. This is kept by whatever changes the folder of one name only, as long as what is
said of a folder depends on nothing but its files.
-/
namespace Concordance

/-- What is left of a storage where there was nothing at a path, or what was there has been
removed. -/
def Storage.Clears {κ : Type} (path : Path) (s cleared : Storage κ) : Prop :=
  s.contains path = .ok false ∧ cleared = s ∨
    s.contains path = .ok true ∧ s.remove path = (cleared, none)

namespace Session

open Storage (Renewed SameElsewhere)

/-- What is said of a name and what it stands for in a storage depends only on the folder of the
name in a home. -/
def OfFolder {α : Type} (home : Path) (P : Text → α → IndexStorage → Prop) : Prop :=
  ∀ name a s s', Storage.Keeps (home.child name) s s' → P name a s → P name a s'

/-- The home of an index has the folders that a table names, and what is said of them is so. A home
that is made with its first folder may be missing. -/
structure Stocks {α : Type} (x : Index) (P : Text → α → IndexStorage → Prop) (s : Session)
    (stock : Table Text α) : Prop where
  same : x.SameIndex s.index
  root : s.storage.isFolder (x.home.upTo 0).destination = true
  home : s.storage.Reaches x.home ∨
    stock = .empty ∧ (∃ d, x = .database d) ∧ s.storage.contains x.home = .ok false
  folders : ∀ name, (x.home.destination.inside name).isOutward = false →
    s.storage.node? (x.home.destination.inside name) = (stock.get? name).map fun _ => .folder
  kept : ∀ name a, stock.get? name = some a → x.home.Takes name ∧ P name a s.storage

namespace Stocks

variable {α : Type} {x : Index} {P : Text → α → IndexStorage → Prop} {s t : Session}
  {stock : Table Text α} {name : Text} {a : α}

theorem reaches (h : Stocks x P s stock) (hstored : stock.get? name = some a) :
    s.storage.Reaches x.home := by
  obtain hreaches | ⟨rfl, -, -⟩ := h.home
  · exact hreaches
  · cases hstored

theorem contains (h : Stocks x P s stock) (hname : x.home.Takes name) :
    s.storage.contains (x.home.child name) = .ok (stock.get? name).isSome := by
  have hfolder := h.folders name (Path.isOutward_inside hname.1.1.2 _)
  obtain hreaches | ⟨rfl, -, hmissing⟩ := h.home
  · rw [hreaches.contains_child hname, hfolder, Option.isSome_map]
  · exact Storage.contains_child_of_missing hmissing hname hfolder

/-- As long as what is stored stays as it is, so does the stock. -/
theorem of_storage (h : Stocks x P s stock) (hsame : x.SameIndex t.index)
    (hstorage : t.storage = s.storage) : Stocks x P t stock := by
  refine ⟨hsame, ?_, ?_, ?_, ?_⟩
  all_goals rw [hstorage]
  · exact h.root
  · exact h.home
  · exact h.folders
  · exact h.kept

/-- What is said of the other folders stays so when one folder has changed. -/
theorem elsewhere (h : Stocks x P s stock) (hP : OfFolder x.home P) {s' : IndexStorage}
    (hs' : s'.Reaches x.home) (helsewhere : SameElsewhere x.home name s.storage s') {other : Text}
    (hother : other ≠ name) (hstored : stock.get? other = some a) :
    x.home.Takes other ∧ P other a s' := by
  obtain ⟨hplain, hsaid⟩ := h.kept other a hstored
  exact ⟨hplain, hP _ _ _ _ (helsewhere.keeps (h.reaches hstored) hs' hother hplain) hsaid⟩

/-- A folder that is made anew is stocked. -/
theorem set (h : Stocks x P s stock) (hP : OfFolder x.home P) (hsame : x.SameIndex t.index)
    (hname : x.home.Takes name) (hrenewed : Renewed x.home name s.storage t.storage)
    (hsaid : P name a t.storage) : Stocks x P t (stock.set name a) := by
  refine ⟨hsame, hrenewed.reaches.folders 0 (Nat.zero_le _), .inl hrenewed.reaches, ?_, ?_⟩
  · intro other houtward
    rw [Table.get?_set]
    by_cases hother : other = name
    · rw [if_pos hother, hother]
      exact Storage.isFolder_iff.mp hrenewed.folder
    · rw [if_neg hother, ← h.folders other houtward]
      exact hrenewed.elsewhere.node?_inside hother
  · intro other b hstored
    rw [Table.get?_set] at hstored
    by_cases hother : other = name
    · rw [if_pos hother] at hstored
      cases hstored
      rw [hother]
      exact ⟨hname, hsaid⟩
    · rw [if_neg hother] at hstored
      exact h.elsewhere hP hrenewed.reaches hrenewed.elsewhere hother hstored

/-- A folder of the stock can be removed, and nothing else is then missing. -/
theorem removed (h : Stocks x P s stock) (hP : OfFolder x.home P) (hdirect : x.home.Direct)
    (hname : x.home.Takes name) (hstored : stock.get? name = some a) :
    ∃ s', s.storage.remove (x.home.child name) = (s', none) ∧
      ∀ t : Session, x.SameIndex t.index → t.storage = s' → Stocks x P t (stock.erase name) := by
  have hfolder : s.storage.isFolder (x.home.destination.inside name) = true := by
    rw [Storage.isFolder_iff, h.folders name (Path.isOutward_inside hname.1.1.2 _), hstored]
    rfl
  obtain ⟨s', hremoved, hreaches, hnone, helsewhere⟩ :=
    (h.reaches hstored).remove hdirect hname hfolder
  refine ⟨s', hremoved, ?_⟩
  rintro t hsame rfl
  refine ⟨hsame, hreaches.folders 0 (Nat.zero_le _), .inl hreaches, ?_, ?_⟩
  · intro other houtward
    rw [Table.get?_erase]
    by_cases hother : other = name
    · rw [if_pos hother, hother]
      exact hnone
    · rw [if_neg hother, ← h.folders other houtward]
      exact helsewhere.node?_inside hother
  · intro other b hleft
    rw [Table.get?_erase] at hleft
    by_cases hother : other = name
    · rw [if_pos hother] at hleft
      cases hleft
    · rw [if_neg hother] at hleft
      exact h.elsewhere hP hreaches helsewhere hother hleft

/-- The folder of a name is cleared, and is then no longer in stock. -/
theorem clears (h : Stocks x P s stock) (hP : OfFolder x.home P) (hdirect : x.home.Direct)
    (hname : x.home.Takes name) :
    ∃ cleared, s.storage.Clears (x.home.child name) cleared ∧
      ∀ t : Session, x.SameIndex t.index → t.storage = cleared →
        Stocks x P t (stock.erase name) := by
  have hcontains := h.contains hname
  cases hstored : stock.get? name with
  | none =>
    rw [hstored] at hcontains
    rw [Table.erase_of_new hstored]
    exact ⟨s.storage, .inl ⟨hcontains, rfl⟩, fun t => h.of_storage⟩
  | some a =>
    rw [hstored] at hcontains
    obtain ⟨cleared, hremoved, hleft⟩ := h.removed hP hdirect hname hstored
    exact ⟨cleared, .inr ⟨hcontains, hremoved⟩, hleft⟩

theorem load (h : Stocks x P s stock) (path : Path) : Stocks x P (s.after (.load path)) stock :=
  h.of_storage (h.same.trans (s.index.sameIndex_load s.storage path))
    (s.index.storage_load s.storage path)

end Stocks

end Session

end Concordance
