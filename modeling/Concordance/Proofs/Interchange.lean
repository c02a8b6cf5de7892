import Concordance.Proofs.Persistence

/-!
# Indexes that are set to the same

What a creation, a load or a deletion does to the storage, and whether it fails, depends on
what an index is set to and not on what it holds. An index that has been created or loaded
holds nothing of what it held before.
-/
namespace Concordance

namespace Index

/-- The format in which an index in memory is saved. -/
def format? : Index → Option TableFormat
  | memory x => some x.format
  | database _ => none

/-- Two indexes are of one kind and set to the same, whatever they hold. -/
structure Interchangeable (x y : Index) : Prop where
  same : x.SameIndex y
  format : x.format? = y.format?

namespace Interchangeable

variable {x y z : Index}

theorem refl (x : Index) : x.Interchangeable x := ⟨.refl x, rfl⟩

theorem symm (h : x.Interchangeable y) : y.Interchangeable x := ⟨h.same.symm, h.format.symm⟩

theorem trans (h : x.Interchangeable y) (h' : y.Interchangeable z) : x.Interchangeable z :=
  ⟨h.same.trans h'.same, h.format.trans h'.format⟩

end Interchangeable

/-- Two operations do the same to the storage, fail alike, and leave interchangeable indexes. -/
structure Match (o o' : Outcome Index) : Prop where
  storage : o.storage = o'.storage
  failure : o.failure = o'.failure
  index : o.index.Interchangeable o'.index

end Index

open Index (Interchangeable Match)

namespace MemoryIndex

variable {x y : MemoryIndex}

theorem interchangeable (ha : x.analyzer = y.analyzer) (hh : x.home = y.home)
    (hf : x.format = y.format) : Interchangeable (.memory x) (.memory y) :=
  ⟨⟨.memory x y, Prod.ext ha hh⟩, congrArg some hf⟩

/-- An index that is set as another one is this one with something else in it. -/
theorem eq_of_interchangeable (h : Interchangeable (.memory x) (.memory y)) :
    ∃ tables name count created, y = { x with
      tables := tables, name := name, documentCount := count, created := created } := by
  obtain ⟨⟨-, hsettings⟩, hformat⟩ := h
  obtain ⟨ha, hh⟩ := Prod.ext_iff.mp hsettings
  obtain ⟨a, home, format, tables, name, count, created⟩ := y
  refine ⟨tables, name, count, created, ?_⟩
  have ha : x.analyzer = a := ha
  have hh : x.home = home := hh
  have hf : x.format = format := Option.some.inj hformat
  rw [ha, hh, hf]

/-- A build depends on the settings of an index and on its name only. -/
theorem build_congr (x : MemoryIndex) (tables : HeldTables) (count : Json) (created : Option Text)
    (s : IndexStorage) (now : Text) (path : Path) (entries : List Json) :
    let y := { x with tables := tables, documentCount := count, created := created }
    Match ((x.build s now path entries).map .memory) ((y.build s now path entries).map .memory) ∧
      ((x.build s now path entries).failure = none →
        x.build s now path entries = y.build s now path entries) := by
  simp only [build]
  cases (Ingestion.ingest (addDocument x.analyzer) .empty entries).stopped with
  | some e => exact ⟨⟨rfl, rfl, interchangeable rfl rfl rfl⟩, fun h => by cases h⟩
  | none => exact ⟨⟨rfl, rfl, .refl _⟩, fun _ => rfl⟩

theorem create_congr (h : Interchangeable (.memory x) (.memory y)) (s : IndexStorage) (now : Text)
    (name : Json) (entries : List Json) :
    Match ((x.create s now name entries).map .memory) ((y.create s now name entries).map .memory) ∧
      ((x.create s now name entries).failure = none →
        (x.create s now name entries).index = (y.create s now name entries).index) := by
  obtain ⟨tables, name', count, created, rfl⟩ := eq_of_interchangeable h
  have hunchanged : Interchangeable (.memory { x with name := name }) (.memory { x with
      tables := tables, name := name, documentCount := count, created := created }) :=
    interchangeable rfl rfl rfl
  simp only [create]
  cases name.text with
  | error e => exact ⟨⟨rfl, rfl, hunchanged⟩, fun h => by cases h⟩
  | ok t =>
    simp only [replace]
    cases s.contains (x.home.child t) with
    | error e => exact ⟨⟨rfl, rfl, hunchanged⟩, fun h => by cases h⟩
    | ok there =>
      cases there with
      | false =>
        obtain ⟨hmatch, hsame⟩ := build_congr { x with name := name } tables count created s now
          (x.home.child t) entries
        exact ⟨hmatch, fun hok => (congrArg Outcome.index (hsame hok) :)⟩
      | true =>
        cases s.remove (x.home.child t) with
        | mk cleared failure =>
          cases failure with
          | some e => exact ⟨⟨rfl, rfl, hunchanged⟩, fun h => by cases h⟩
          | none =>
            obtain ⟨hmatch, hsame⟩ := build_congr { x with name := name } tables count created
              cleared now (x.home.child t) entries
            exact ⟨⟨hmatch.storage, hmatch.failure, hmatch.index⟩,
              fun hok => (congrArg Outcome.index (hsame hok) :)⟩

/-- Tables are loaded or not whatever is held, and then nothing of what was held is left. -/
theorem tables_load_congr (held held' : HeldTables) (s : IndexStorage) (folder : Path)
    (form : Form) :
    (held.load s folder form).2 = (held'.load s folder form).2 ∧
      ((held.load s folder form).2 = none →
        held.load s folder form = held'.load s folder form) := by
  simp only [HeldTables.load]
  cases Tables.savedTerms s folder form with
  | error e => exact ⟨rfl, fun h => by cases h⟩
  | ok terms =>
    cases Tables.savedContents s folder form with
    | error e => exact ⟨rfl, fun h => by cases h⟩
    | ok contents =>
      cases Tables.savedStatistics s folder form with
      | error e => exact ⟨rfl, fun h => by cases h⟩
      | ok statistics => exact ⟨rfl, fun _ => rfl⟩

theorem restore_congr (h : Interchangeable (.memory x) (.memory y)) (s : IndexStorage)
    (folder : Path) (metadata : Json) :
    Interchangeable (.memory (x.restore s folder metadata).1)
        (.memory (y.restore s folder metadata).1) ∧
      (x.restore s folder metadata).2 = (y.restore s folder metadata).2 ∧
      ∀ log, (x.restore s folder metadata).2 = .ok log →
        (x.restore s folder metadata).1 = (y.restore s folder metadata).1 := by
  obtain ⟨tables, name, count, created, rfl⟩ := eq_of_interchangeable h
  -- What is restored is set one after the other, so a failure leaves the one or the other of it.
  simp only [restore]
  cases metadata.field "index_name".toText with
  | error e => exact ⟨interchangeable rfl rfl rfl, rfl, fun _ h => by cases h⟩
  | ok name' =>
    cases metadata.field "document_count".toText with
    | error e => exact ⟨interchangeable rfl rfl rfl, rfl, fun _ h => by cases h⟩
    | ok count' =>
      simp only
      generalize ((Json.find? "format".toText metadata.members).map TableFormat.value).getD x.format
        = format
      cases momentOf ((Json.find? "created_at".toText metadata.members).getD .null) with
      | error e => exact ⟨interchangeable rfl rfl rfl, rfl, fun _ h => by cases h⟩
      | ok created' =>
        obtain ⟨hfailure, hsame⟩ := tables_load_congr x.tables tables s folder format.form
        simp only
        generalize x.tables.load s folder format.form = loaded at hfailure hsame
        generalize tables.load s folder format.form = loaded' at hfailure hsame
        obtain ⟨held, failure⟩ := loaded
        obtain ⟨held', failure'⟩ := loaded'
        cases hfailure
        cases failure with
        | some e => exact ⟨interchangeable rfl rfl rfl, rfl, fun _ h => by cases h⟩
        | none =>
          cases hsame rfl
          exact ⟨.refl _, rfl, fun _ _ => rfl⟩

theorem load_congr (h : Interchangeable (.memory x) (.memory y)) (s : IndexStorage) (path : Path) :
    Match ((x.load s path).map .memory) ((y.load s path).map .memory) ∧
      ((x.load s path).failure = none → (x.load s path).index = (y.load s path).index) := by
  simp only [load]
  cases s.contains path with
  | error e => exact ⟨⟨rfl, rfl, h⟩, fun h => by cases h⟩
  | ok there =>
    cases there with
    | false => exact ⟨⟨rfl, rfl, h⟩, fun h => by cases h⟩
    | true =>
      simp only
      cases metadataIn s path with
      | error e => exact ⟨⟨rfl, rfl, h⟩, fun h => by cases h⟩
      | ok metadata =>
        obtain ⟨hindex, hlog, hsame⟩ := restore_congr h s path metadata
        simp only
        generalize x.restore s path metadata = restored at hindex hlog hsame
        generalize y.restore s path metadata = restored' at hindex hlog hsame
        obtain ⟨z, log⟩ := restored
        obtain ⟨z', log'⟩ := restored'
        cases hlog
        cases log with
        | error e => exact ⟨⟨rfl, rfl, hindex⟩, fun h => by cases h⟩
        | ok log => exact ⟨⟨rfl, rfl, hindex⟩, fun _ => hsame log rfl⟩

theorem delete_congr (h : Interchangeable (.memory x) (.memory y)) (s : IndexStorage)
    (name : Text) :
    Match ((x.delete s name).map .memory) ((y.delete s name).map .memory) := by
  obtain ⟨tables, name', count, created, rfl⟩ := eq_of_interchangeable h
  simp only [delete]
  cases s.contains (x.home.child name) with
  | error e => exact ⟨rfl, rfl, h⟩
  | ok there =>
    cases there with
    | false => exact ⟨rfl, rfl, h⟩
    | true => exact ⟨rfl, rfl, h⟩

end MemoryIndex

namespace DatabaseIndex

variable {x y : DatabaseIndex}

theorem interchangeable (ha : x.analyzer = y.analyzer) (hh : x.home = y.home) :
    Interchangeable (.database x) (.database y) :=
  ⟨⟨.database x y, Prod.ext ha hh⟩, rfl⟩

theorem eq_of_interchangeable (h : Interchangeable (.database x) (.database y)) :
    ∃ opened path catalogue, y = { x with
      opened := opened, path := path, catalogue := catalogue } := by
  obtain ⟨ha, hh⟩ := Prod.ext_iff.mp h.same.settings
  obtain ⟨a, home, opened, path, catalogue⟩ := y
  refine ⟨opened, path, catalogue, ?_⟩
  have ha : x.analyzer = a := ha
  have hh : x.home = home := hh
  rw [ha, hh]

/-- A build that gets as far as a database depends on the settings of an index only. -/
theorem build_congr (x : DatabaseIndex) (opened : Option Database) (catalogue : Json)
    (s : IndexStorage) (name : Text) (path : Path) (entries : List Json) :
    let y := { x with opened := opened, catalogue := catalogue }
    Match ((x.build s name path entries).map .database)
        ((y.build s name path entries).map .database) ∧
      ((x.build s name path entries).failure = none →
        (x.build s name path entries).index = (y.build s name path entries).index) := by
  simp only [build]
  cases s.makeFolders path with
  | mk made failure =>
    cases failure with
    | some e => exact ⟨⟨rfl, rfl, interchangeable rfl rfl⟩, fun h => by cases h⟩
    | none =>
      simp only
      cases made.writeIn path [(databaseFile, .database .empty)] with
      | mk written failure =>
        cases failure with
        | some e => exact ⟨⟨rfl, rfl, interchangeable rfl rfl⟩, fun h => by cases h⟩
        | none =>
          simp only [fill]
          cases (Ingestion.ingest (addDocument x.analyzer) .empty entries).stopped with
          | some e => exact ⟨⟨rfl, rfl, interchangeable rfl rfl⟩, fun h => by cases h⟩
          | none => exact ⟨⟨rfl, rfl, .refl _⟩, fun _ => rfl⟩

theorem create_congr (h : Interchangeable (.database x) (.database y)) (s : IndexStorage)
    (name : Json) (entries : List Json) :
    Match ((x.create s name entries).map .database) ((y.create s name entries).map .database) ∧
      ((x.create s name entries).failure = none →
        (x.create s name entries).index = (y.create s name entries).index) := by
  obtain ⟨opened, path, catalogue, rfl⟩ := eq_of_interchangeable h
  simp only [create]
  cases name.text with
  | error e => exact ⟨⟨rfl, rfl, interchangeable rfl rfl⟩, fun h => by cases h⟩
  | ok t =>
    have hbuild (cleared : IndexStorage) :=
      build_congr (x.close.towards t) none catalogue cleared t (x.home.child t) entries
    simp only [replace, close]
    cases s.contains (x.home.child t) with
    | error e => exact ⟨⟨rfl, rfl, interchangeable rfl rfl⟩, fun h => by cases h⟩
    | ok there =>
      cases there with
      | false => exact hbuild s
      | true =>
        cases s.remove (x.home.child t) with
        | mk cleared failure =>
          cases failure with
          | some e => exact ⟨⟨rfl, rfl, interchangeable rfl rfl⟩, fun h => by cases h⟩
          | none =>
            obtain ⟨hmatch, hsame⟩ := hbuild cleared
            exact ⟨⟨hmatch.storage, hmatch.failure, hmatch.index⟩, hsame⟩

theorem load_congr (h : Interchangeable (.database x) (.database y)) (s : IndexStorage)
    (path : Path) :
    Match ((x.load s path).map .database) ((y.load s path).map .database) ∧
      ((x.load s path).failure = none → (x.load s path).index = (y.load s path).index) := by
  obtain ⟨opened, path', catalogue, rfl⟩ := eq_of_interchangeable h
  simp only [load]
  cases s.contains path with
  | error e => exact ⟨⟨rfl, rfl, h⟩, fun h => by cases h⟩
  | ok there =>
    cases there with
    | false => exact ⟨⟨rfl, rfl, h⟩, fun h => by cases h⟩
    | true =>
      simp only [close]
      split
      · next db _ =>
        cases db.catalogue? with
        | some c => exact ⟨⟨rfl, rfl, .refl _⟩, fun _ => rfl⟩
        | none => exact ⟨⟨rfl, rfl, interchangeable rfl rfl⟩, fun h => by cases h⟩
      · exact ⟨⟨rfl, rfl, interchangeable rfl rfl⟩, fun h => by cases h⟩

theorem delete_congr (h : Interchangeable (.database x) (.database y)) (s : IndexStorage)
    (name : Text) :
    Match ((x.delete s name).map .database) ((y.delete s name).map .database) := by
  obtain ⟨opened, path, catalogue, rfl⟩ := eq_of_interchangeable h
  have hindex : Interchangeable
      (.database (if x.path = some (x.home.child name) then x.close else x))
      (.database (if path = some (x.home.child name)
        then close { x with opened := opened, path := path, catalogue := catalogue }
        else { x with opened := opened, path := path, catalogue := catalogue })) := by
    split <;> split <;> exact interchangeable rfl rfl
  simp only [delete]
  cases s.contains (x.home.child name) with
  | error e => exact ⟨rfl, rfl, hindex⟩
  | ok there =>
    cases there with
    | false => exact ⟨rfl, rfl, hindex⟩
    | true => exact ⟨rfl, rfl, hindex⟩

end DatabaseIndex

namespace Index

variable {x y : Index}

theorem create_congr (h : x.Interchangeable y) (s : IndexStorage) (now : Text) (name : Json)
    (entries : List Json) :
    Match (x.create s now name entries) (y.create s now name entries) ∧
      ((x.create s now name entries).failure = none →
        (x.create s now name entries).index = (y.create s now name entries).index) := by
  obtain ⟨⟨hkind, -⟩, -⟩ := id h
  cases hkind with
  | memory x y =>
    obtain ⟨hmatch, hsame⟩ := MemoryIndex.create_congr h s now name entries
    exact ⟨hmatch, fun hok => congrArg memory (hsame hok)⟩
  | database x y =>
    obtain ⟨hmatch, hsame⟩ := DatabaseIndex.create_congr h s name entries
    exact ⟨hmatch, fun hok => congrArg database (hsame hok)⟩

theorem load_congr (h : x.Interchangeable y) (s : IndexStorage) (path : Path) :
    Match (x.load s path) (y.load s path) ∧
      ((x.load s path).failure = none → (x.load s path).index = (y.load s path).index) := by
  obtain ⟨⟨hkind, -⟩, -⟩ := id h
  cases hkind with
  | memory x y =>
    obtain ⟨hmatch, hsame⟩ := MemoryIndex.load_congr h s path
    exact ⟨hmatch, fun hok => congrArg memory (hsame hok)⟩
  | database x y =>
    obtain ⟨hmatch, hsame⟩ := DatabaseIndex.load_congr h s path
    exact ⟨hmatch, fun hok => congrArg database (hsame hok)⟩

theorem delete_congr (h : x.Interchangeable y) (s : IndexStorage) (name : Text) :
    Match (x.delete s name) (y.delete s name) := by
  obtain ⟨⟨hkind, -⟩, -⟩ := id h
  cases hkind with
  | memory x y => exact MemoryIndex.delete_congr h s name
  | database x y => exact DatabaseIndex.delete_congr h s name

theorem stored_congr (h : x.Interchangeable y) (s : IndexStorage) : x.stored s = y.stored s := by
  have hhome := h.same.home
  obtain ⟨⟨hkind, -⟩, -⟩ := h
  cases hkind with
  | memory x y =>
    have hhome : x.home = y.home := hhome
    show MemoryIndex.stored x s = MemoryIndex.stored y s
    rw [MemoryIndex.stored, MemoryIndex.stored, hhome]
  | database x y =>
    have hhome : x.home = y.home := hhome
    show DatabaseIndex.stored x s = DatabaseIndex.stored y s
    rw [DatabaseIndex.stored, DatabaseIndex.stored, hhome]

end Index

end Concordance
