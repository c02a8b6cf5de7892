import Concordance.Proofs.Commands
import Concordance.Proofs.Dataset
import Concordance.Proofs.NamedFiles
import Concordance.Proofs.Room
import Concordance.Proofs.Scan

/-!
# From a dataset to the answers of commands

One command creates an index of a dataset, and later ones of another CLI show its
documents and search in it. What comes of them is told here by the lines of the dataset
and by an index in memory that is made of what is loaded.
-/
namespace Concordance

open Concordance.Configuration (NamesBackend NamesFile)
open Work (Does Reads datasetIn entryOf)

/-- The configuration of a backend and a dataset. -/
def Configuration.of (p : Backend) (file folder : Text) : Configuration :=
  ⟨[p], .ok (.ofText file), .ofText folder⟩

/-- The engine of all commands. -/
def Backend.engine [Language] : Engine :=
  ⟨defaultPunctuation, analyzer.stemmer, .int Settings.defaultDepth, .null⟩

namespace Work

variable {p : Backend} {around later : Surroundings} {backend dataset sample : Json}
  {c : Configuration} {storage made s : IndexStorage} {file name : Text} {bytes : ByteArray}
  {b : CliState} {x : Index}

/-- What a creation comes to is put down, and the name is given back. -/
theorem does_creating (around : Surroundings) (name : Json) (shown : Text)
    (documents : List Document) (x : Index) (s : IndexStorage) (b : CliState) :
    let o := x.create s around.now name (documents.map entryOf)
    Does (creating around name shown documents x s) b (o.failure.elim (.ok name) .error)
      ⟨o.storage, some o.index⟩ := by
  intro o
  have hsettled := does_settle (b := b) o
  cases hfailure : o.failure with
  | none =>
    rw [hfailure] at hsettled
    exact hsettled.bind ((reads_say _ _ _).bind (reads_pure name _))
  | some e =>
    rw [hfailure] at hsettled
    exact hsettled.bind_error

/-- The entries that a dataset gives. -/
def entriesOf (bytes : ByteArray) : List Json :=
  (Dataset.loadBytes Configuration.datasetOptions bytes).documents.map entryOf

/-- An index of a dataset is created by a new index, once the storage has been prepared for it. -/
theorem does_createIndex [Language] (name : Text)
    (hchosen : Configuration.choose around backend dataset = .ok c)
    (hkind : c.backend? = some p.name) (hmade : storage.makeFolders c.folder = (made, none))
    (hdataset : datasetIn c made = .ok bytes)
    (hloads : (Dataset.loadBytes Configuration.datasetOptions bytes).failure = none)
    (hsample : sample.isEmpty = true) :
    (∃ s, p.prepare c.folder made = .ok s ∧
      let o := (p.newIndex c.folder).create s around.now (.str name) (entriesOf bytes)
      Does (createIndex around dataset (.str name) sample backend) ⟨storage, none⟩
        (o.failure.elim (.ok (.str name)) .error) ⟨o.storage, some o.index⟩) ∨
    ∃ e, p.prepare c.folder made = .error e ∧
      Does (createIndex around dataset (.str name) sample backend) ⟨storage, none⟩ (.error e)
        ⟨made, none⟩ := by
  have hconfigured := does_configure (b := ⟨storage, none⟩) hchosen
  simp only [hmade] at hconfigured
  have hdocuments := reads_loadDataset c ⟨made, none⟩
  simp only [hdataset, ok_bind, hloads] at hdocuments
  have hsame : documentsFor c sample = loadDataset c := if_pos hsample
  rw [← hsame] at hdocuments
  have hindex := does_theIndex_of_none (b := ⟨made, none⟩) rfl hkind
  rw [createIndex_eq]
  cases hs : p.prepare c.folder made with
  | ok s =>
    simp only [hs] at hindex
    refine .inl ⟨s, rfl, ?_⟩
    refine hconfigured.bind ((reads_heading _ _).bind ((reads_lift (.ok name) _).bind ?_))
    refine (reads_say _ _ _).bind ?_
    refine hdocuments.bind ((reads_say _ _ _).bind (hindex.bind ?_))
    exact (does_creating around (.str name) name _ _ s _).get
  | error e =>
    simp only [hs] at hindex
    refine .inr ⟨e, rfl, ?_⟩
    refine hconfigured.bind ((reads_heading _ _).bind ((reads_lift (.ok name) _).bind ?_))
    refine (reads_say _ _ _).bind ?_
    exact hdocuments.bind ((reads_say _ _ _).bind hindex.bind_error)

/-- An index that was created is found by a command of a new CLI, which then goes on with what it
reads there. -/
theorem does_later [Language] (hchosen : Configuration.choose later backend .null = .ok c)
    (hkind : c.backend? = some p.name) {folder : Path} (hfolder : c.folder = folder)
    (hreaches : s.Reaches (p.home folder)) {y : Index} {log : List LogLine}
    (hload : (p.newIndex folder).load s ((p.home folder).child name) = ⟨y, s, log, none⟩)
    {f : Configuration → Index → Work Json} {r : Configuration → Index → Except Failure Json}
    (hf : ∀ c x, Reads (f c x) fun _ => r c x) :
    Does (do let c ← configure later backend .null; let x ← load c (.str name); f c x) ⟨s, none⟩
      (r c y) ⟨s, some y⟩ := by
  subst hfolder
  have hfolder := hreaches.of_child p.isFileName_homeName.1
  have hconfigured := does_configure (b := ⟨s, none⟩) hchosen
  simp only [Storage.makeFolders_of_reaches hfolder] at hconfigured
  have hindex := does_theIndex_of_none (b := ⟨s, none⟩) rfl hkind
  simp only [Backend.prepare_of_reaches hreaches] at hindex
  rw [← p.home_newIndex c.folder] at hload
  refine hconfigured.bind (Does.bind ?_ (hf c y _))
  refine hindex.bind ((reads_lift (.ok name) _).bind ?_)
  refine Does.get (f := fun s => settle ((p.newIndex c.folder).load s
    ((p.newIndex c.folder).home.child name))) ?_
  simp only [hload]
  exact does_settle _

section Answers

variable {a : Analyzer} {docs : Collection} {y : Index}

theorem shown_of_view (hview : y.view = Collection.view a docs) {d : Int}
    (hd : isWritable d = true) :
    shown (.int d) y = .ok (((docs.get? d).map Json.str).getD .null) := by
  have hinteger : (Json.int d).toInteger = .ok d := rfl
  have hshown : (Json.int d).shown = .ok (decimal d) := by rw [Index.shown_int, if_pos hd]
  rw [shown, hinteger, ok_bind, Index.contentBy_of_view_eq hview,
    if_pos (Index.canAsk_of_isWritable hd y), ok_bind, hshown]
  cases docs.get? d <;> rfl

/-- All documents that are found are there. -/
theorem get?_of_found {e : Engine} {query : Text} {ids : List Int}
    (h : e.found (Collection.view a docs) query = .ok ids) : ∀ d ∈ ids, docs.get? d ≠ none := by
  intro d hd hnone
  obtain ⟨matched, hmatched, -, hmem⟩ := Engine.matching_of_found h
  exact Collection.not_mem_matching hnone hmatched ((hmem d).mp hd)

theorem answered_of_view [Language] (hview : y.view = Collection.view a docs)
    (hdocs : ∀ d text, docs.get? d = some text → isWritable d = true) {query : Text}
    {ids : List Int} {k : Int} (hk : 1 ≤ k)
    (h : (c.settings.engine y.analyzer).found (Collection.view a docs) query = .ok ids) :
    answered c (.str query) (.int k) y = .ok (.arr ((ids.take k.toNat).map Json.int)) := by
  obtain ⟨answer, hanswer, hshown⟩ :=
    Engine.docs_answer (v := Collection.view a docs) (fun _ => rfl) hk h
  have hwritable : (answer.results.all fun r => isWritable r.doc) = true := by
    rw [List.all_eq_true]
    intro r hr
    have hmem : r.doc ∈ ids.take k.toNat := hshown ▸ List.mem_map_of_mem hr
    obtain ⟨text, htext⟩ :=
      Option.ne_none_iff_exists'.mp (get?_of_found h r.doc (List.mem_of_mem_take hmem))
    exact hdocs r.doc text htext
  have hwritten : answer.written = .ok { answer with query := paired answer.query } := by
    rw [Answer.written, if_pos hwritable]
  simp only [answered, hview, pure_eq_ok, ok_bind, hanswer, hwritten, ← hshown, List.map_map]
  rfl

end Answers

/-- What is accepted of a dataset under an id is the text of the first line with one. -/
theorem get?_accepted_entriesOf
    (hloads : (Dataset.loadBytes Configuration.datasetOptions bytes).failure = none) (d : Int) :
    (Ingestion.accepted .empty (entriesOf bytes)).get? d =
      Dataset.textOf Configuration.datasetOptions bytes d := by
  have hhalves : ∀ line ∈ (Dataset.linesOf bytes).zipIdx 1, ∀ c ∈ line.1, c.isHalf = false :=
    fun line hline => Dataset.isHalf_of_mem_linesOf (List.fst_mem_of_mem_zipIdx hline)
  rw [entriesOf, Ingestion.get?_accepted Dataset.unpack_entryOf, Table.get?_empty, Option.none_or,
    Dataset.documents_loadBytes rfl hloads, Dataset.firstText_documents _ _ hhalves]
  rfl

/-- The entries of a dataset can all be reported. -/
theorem legible_entriesOf
    (hloads : (Dataset.loadBytes Configuration.datasetOptions bytes).failure = none)
    (hlines : (Dataset.linesOf bytes).length < 10 ^ maxDigits) :
    Ingestion.Legible (entriesOf bytes) := by
  rw [entriesOf, Dataset.documents_loadBytes rfl hloads]
  exact Dataset.legible_documents hlines fun _ => Dataset.isHalf_of_mem_linesOf

/-- An index that has been created of a dataset is found by a new CLI, and is read there as the
documents that were accepted. -/
theorem exists_loaded [Language] (hs : p.prepare c.folder made = .ok s)
    (hroot : made.isFolder ((p.home c.folder).upTo 0).destination = true)
    (hdirect : (p.home c.folder).Direct) (hname : (p.home c.folder).Takes name) {now : Text}
    (hnow : Moment.isMoment now = true)
    (hterms : (p.newIndex c.folder).KeepsTerms (entriesOf bytes))
    (h : ((p.newIndex c.folder).create s now (.str name) (entriesOf bytes)).failure = none) :
    let stored := ((p.newIndex c.folder).create s now (.str name) (entriesOf bytes)).storage
    stored.Reaches (p.home c.folder) ∧ ∃ y log,
      (p.newIndex c.folder).load stored ((p.home c.folder).child name) = ⟨y, stored, log, none⟩ ∧
      y.analyzer = Backend.analyzer ∧
      y.view = Collection.view Backend.analyzer (Ingestion.accepted .empty (entriesOf bytes)) := by
  intro stored
  have hhome := p.home_newIndex c.folder
  have hroot' : s.isFolder ((p.newIndex c.folder).home.upTo 0).destination = true := by
    rw [hhome]
    exact Backend.isFolder_prepare hs hroot
  have hrenewed := Index.renewed_create (hhome ▸ hdirect) (hhome ▸ hname) hroot' h
  obtain ⟨log, hlog⟩ := Index.load_eq_create (.refl (p.newIndex c.folder)) h hnow
  rw [Index.reread_create h hterms, hhome] at hlog
  rw [hhome] at hrenewed
  refine ⟨hrenewed.reaches, _, log, hlog, ?_, ?_⟩
  · rw [Index.analyzer_withSettings, Backend.analyzer_newIndex]
  · rw [Index.view_withSettings, Index.view_formatRestored, Index.view_create h,
      Backend.analyzer_newIndex]

/-- What is read of the dataset is what its file holds. -/
theorem datasetIn_of_read {content : Content} (h : made.read (.ofText file) = .ok content) :
    datasetIn (.of p file around.folder) made = .ok content.toBytes := by
  obtain ⟨place, hplace, hnode⟩ := Storage.node?_of_read h
  have hthere : made.contains (.ofText file) = .ok true := by
    rw [Storage.contains_of_locate hplace, hnode]
    rfl
  have hdataset : (Configuration.of p file around.folder).dataset = .ok (.ofText file) := rfl
  rw [datasetIn, hdataset, ok_bind, hthere, ok_bind, if_pos rfl, h]
  rfl

end Work

end Concordance
