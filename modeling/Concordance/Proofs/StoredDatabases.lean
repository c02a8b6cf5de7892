import Concordance.Proofs.Reload

/-!
# Databases as creations leave them

A creation that is stopped by an entry leaves a database with documents and nothing else. One
that gets to its end leaves the database of a collection, with a catalogue that lists its
documents. Whatever calls are made, no other databases are stored.
-/
namespace Concordance

namespace Ingestion

/-- What every addition keeps is kept by an ingestion, also by one that is ended early. -/
theorem ingest_keeps {τ : Type} {add : τ → Json → Json → τ × Report} {P : τ → Prop}
    (hadd : ∀ t id content, P t → P (add t id content).1) {t : τ} (ht : P t)
    (entries : List Json) : P (ingest add t entries).built := by
  induction entries generalizing t with
  | nil => exact ht
  | cons entry rest ih =>
    rw [ingest]
    cases unpack entry with
    | error e => exact ht
    | ok pair =>
      obtain ⟨id, content⟩ := pair
      have hnext : P (if content.isEmpty then (t, skipped id) else add t id content).1 := by
        split
        · exact ht
        · exact hadd t id content ht
      simp only
      split
      · next heq =>
        rw [heq] at hnext
        exact hnext
      · next heq =>
        rw [heq] at hnext
        exact ih hnext
      · next heq =>
        rw [heq] at hnext
        exact ih hnext

end Ingestion

namespace Database

/-- What a creation leaves of a database: its documents without their terms, or all of it with a
catalogue. -/
inductive Left (a : Analyzer) (db : Database) : Prop where
  | begun (docs : Collection) (documents : ∀ doc, db.document? doc =
      .ok ((docs.get? doc).map fun text => ⟨text, (a.terms text).length⟩))
      (postings : ∀ term, db.postings term = .ok .empty) (catalogue : db.catalogue? = none)
  | complete (docs : Collection) (c : Json) (represents : db.Represents a docs)
      (catalogue : db.catalogue? = some c) (lists : Catalogue.Lists docs c)

theorem left_empty (a : Analyzer) : (empty : Database).Left a :=
  .begun .empty (fun _ => rfl) (fun _ => rfl) rfl

variable {a : Analyzer} {db : Database}

/-- Only a database with a catalogue has the terms of its documents. -/
theorem Left.represents (h : db.Left a) {c : Json} (hc : db.catalogue? = some c) :
    ∃ docs, db.Represents a docs ∧ Catalogue.Lists docs c := by
  cases h with
  | begun docs documents postings catalogue =>
    rw [catalogue] at hc
    cases hc
  | complete docs c' represents catalogue lists =>
    rw [catalogue] at hc
    cases hc
    exact ⟨docs, represents, lists⟩

theorem catalogue?_put_document (db : Database) (shown : Text) (record : Json) :
    (db.put (documentKey shown) record).catalogue? = db.catalogue? := by
  rw [catalogue?, read?_put, if_neg (documentKey_ne_catalogueKey shown).symm]
  rfl

end Database

namespace DatabaseIndex

/-- Taking in documents writes no catalogue. -/
theorem catalogue?_addDocument (a : Analyzer) (d : Draft) (id content : Json) :
    (addDocument a d id content).1.database.catalogue? = d.database.catalogue? := by
  unfold addDocument
  split
  · rfl
  · split
    · rfl
    · split
      · rfl
      · split
        · rfl
        · exact Database.catalogue?_put_document _ _ _

theorem left_begun (a : Analyzer) (entries : List Json) :
    (Ingestion.ingest (addDocument a) .empty entries).built.database.Left a := by
  have hcatalogue : (Ingestion.ingest (addDocument a) .empty entries).built.database.catalogue? =
      none := by
    refine Ingestion.ingest_keeps (P := fun d : Draft => d.database.catalogue? = none) ?_ rfl
      entries
    intro d id content hd
    rw [catalogue?_addDocument, hd]
  obtain ⟨before, -, hrep, -⟩ := represents_built a entries
  exact .begun _ hrep.documents hrep.unwritten hcatalogue

theorem left_complete {a : Analyzer} {entries : List Json}
    (h : (Ingestion.ingest (addDocument a) .empty entries).stopped = none) {name : Text}
    (hname : hasPair name = false) (s : Stemmer) :
    let d := (Ingestion.ingest (addDocument a) .empty entries).built
    (d.complete (d.describe name s.name)).Left a := by
  intro d
  have hrep := represents_of_stopped h
  exact .complete _ _ (hrep.complete _) (catalogue?_describe d hname s)
    (hrep.lists_describe name s.name)

/-- All databases that are stored are such as creations leave. -/
def AllLeft (a : Analyzer) (s : IndexStorage) : Prop :=
  ∀ p db, s.node? p = some (.file (.database db)) → db.Left a

variable {a : Analyzer} {s s' : IndexStorage} {folder : Path}

theorem AllLeft.of_noNewFiles (h : AllLeft a s) (hfiles : Storage.NoNewFiles s s') :
    AllLeft a s' :=
  fun p db hp => h p db (hfiles p _ hp)

theorem AllLeft.writeIn (h : AllLeft a s) (folder : Path) {db : Database} (hdb : db.Left a) :
    AllLeft a (s.writeIn folder [(databaseFile, .database db)]).1 := by
  intro p db' hp
  obtain hold | ⟨f, hf, -, hcontent⟩ := Storage.file_of_writeIn hp
  · exact h p db' hold
  · rw [List.mem_singleton.mp hf] at hcontent
    cases hcontent
    exact hdb

/-- What is read of a stored database is what a creation has left of it. -/
theorem AllLeft.read (h : AllLeft a s) {path : Path} {db : Database}
    (hread : s.read path = .ok (.database db)) : db.Left a := by
  obtain ⟨place, -, hnode⟩ := Storage.node?_of_read hread
  exact h place db hnode

/-- The database that is open has the catalogue that is kept. -/
def Catalogued (x : DatabaseIndex) : Prop :=
  ∃ db c, x.opened = some db ∧ db.catalogue? = some c ∧ x.catalogue = c

/-- What an operation on an index leaves: databases as creations leave them, and an open one with
its catalogue unless it fails or changes nothing. -/
structure Leaves (x : DatabaseIndex) (o : Outcome DatabaseIndex) : Prop where
  stored : AllLeft x.analyzer o.storage
  opened : ∀ db, o.index.opened = some db → db.Left x.analyzer
  catalogued : o.index = x ∨ o.index.opened = none ∨ o.failure ≠ none ∨ o.index.Catalogued

variable {x : DatabaseIndex}

theorem leaves_unchanged (h : AllLeft x.analyzer s)
    (hopened : ∀ db, x.opened = some db → db.Left x.analyzer) (log : List LogLine)
    (failure : Option Failure) : x.Leaves ⟨x, s, log, failure⟩ :=
  ⟨h, hopened, .inl rfl⟩

theorem leaves_closed {y : DatabaseIndex} (h : AllLeft x.analyzer s) (hclosed : y.opened = none)
    (log : List LogLine) (failure : Option Failure) : x.Leaves ⟨y, s, log, failure⟩ where
  stored := h
  opened db hdb := by
    rw [show Outcome.index ⟨y, s, log, failure⟩ = y from rfl, hclosed] at hdb
    cases hdb
  catalogued := .inr (.inl hclosed)

theorem leaves_fill (h : AllLeft x.analyzer s) {name : Text} (hname : hasPair name = false)
    (path : Path) (entries : List Json) {y : DatabaseIndex} (hy : y.analyzer = x.analyzer) :
    x.Leaves (y.fill s name path entries) := by
  rw [fill, hy]
  cases hstopped : (Ingestion.ingest (addDocument x.analyzer) .empty entries).stopped with
  | some e =>
    -- The documents in front of the entry have been written, and the catalogue has not.
    have hleft := left_begun x.analyzer entries
    refine ⟨h.writeIn _ hleft, fun db hdb => ?_, .inr (.inr (.inl (Option.some_ne_none e)))⟩
    cases hdb
    exact hleft
  | none =>
    have hleft := left_complete hstopped hname x.analyzer.stemmer
    refine ⟨h.writeIn _ hleft, fun db hdb => ?_,
      .inr (.inr (.inr ⟨_, _, rfl, catalogue?_describe _ hname _, rfl⟩))⟩
    cases hdb
    exact hleft

theorem leaves_build (h : AllLeft x.analyzer s) (name : Text) (home : Path) (entries : List Json)
    {y : DatabaseIndex} (hy : y.analyzer = x.analyzer) (hclosed : y.opened = none) :
    x.Leaves (y.build s name (home.child name) entries) := by
  have hmade := h.of_noNewFiles (Storage.noNewFiles_makeFolders s (home.child name))
  unfold build
  split
  · next made e hfolders =>
    rw [hfolders] at hmade
    exact leaves_closed hmade hclosed _ _
  · next made hfolders =>
    rw [hfolders] at hmade
    have hopened := hmade.writeIn (home.child name) (Database.left_empty x.analyzer)
    split
    · next opened e hwritten =>
      rw [hwritten] at hopened
      exact leaves_closed hopened hclosed _ _
    · next opened hwritten =>
      -- No folder has a name with a pair, so the catalogue is read as it is written.
      have hname : hasPair name = false := Opened.hasPair ⟨made, hfolders, hwritten⟩
      rw [hwritten] at hopened
      exact leaves_fill hopened hname _ entries hy

theorem Leaves.report {o : Outcome DatabaseIndex} (h : x.Leaves o) (line : LogLine) :
    x.Leaves (o.report line) :=
  ⟨h.stored, h.opened, h.catalogued⟩

/-- Whatever comes of a creation, it leaves databases as creations leave them. -/
theorem leaves_create (h : AllLeft x.analyzer s) (name : Json) (entries : List Json) :
    x.Leaves (x.create s name entries) := by
  unfold create
  split
  · next t _ =>
    simp only [replace]
    split
    · exact leaves_closed h rfl _ _
    · exact leaves_build h t _ entries rfl rfl
    · have hcleared := h.of_noNewFiles (Storage.noNewFiles_remove s (x.close.home.child t))
      split
      · next cleared e hremoved =>
        rw [hremoved] at hcleared
        exact leaves_closed hcleared rfl _ _
      · next cleared hremoved =>
        rw [hremoved] at hcleared
        refine Leaves.report ?_ _
        exact leaves_build hcleared t _ entries rfl rfl
  · exact leaves_closed h rfl _ _

theorem leaves_load (h : AllLeft x.analyzer s)
    (hopened : ∀ db, x.opened = some db → db.Left x.analyzer) (path : Path) :
    x.Leaves (x.load s path) := by
  unfold load
  split
  · exact leaves_unchanged h hopened _ _
  · exact leaves_unchanged h hopened _ _
  · simp only
    split
    · next db hread =>
      split
      · next c hc =>
        refine ⟨h, fun db' hdb => ?_, .inr (.inr (.inr ⟨db, c, rfl, hc, rfl⟩))⟩
        cases hdb
        exact h.read hread
      · refine ⟨h, fun db' hdb => ?_, .inr (.inr (.inl (Option.some_ne_none _)))⟩
        cases hdb
        exact h.read hread
    · exact leaves_closed h rfl _ _

theorem leaves_delete (h : AllLeft x.analyzer s)
    (hopened : ∀ db, x.opened = some db → db.Left x.analyzer) (name : Text) :
    x.Leaves (x.delete s name) := by
  have hindex {s' : IndexStorage} (h' : AllLeft x.analyzer s') (log : List LogLine)
      (failure : Option Failure) :
      x.Leaves ⟨if x.path = some (x.home.child name) then x.close else x, s', log, failure⟩ := by
    split
    · exact leaves_closed h' rfl log failure
    · exact leaves_unchanged h' hopened log failure
  unfold delete
  simp only
  split
  · exact hindex h _ _
  · exact hindex h _ _
  · exact hindex (h.of_noNewFiles (Storage.noNewFiles_remove s _)) _ _

end DatabaseIndex

end Concordance
