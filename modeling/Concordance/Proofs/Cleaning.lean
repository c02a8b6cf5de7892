import Concordance.Proofs.Backends

/-!
# Entries that leave no trace

An entry gives a document when it is a pair of an id that stands for an integer and of a
text that is not empty. All other entries, and those with the id of an earlier document,
can be left out of a list before an index is created of it: the same index comes of it.
-/
namespace Concordance

namespace Ingestion

/-- The document that an entry gives, if it gives one. -/
def documentOf (entry : Json) : Option (Int × Text) :=
  match unpack entry with
  | .ok (id, content) =>
    if content.isEmpty then none
    else match id.toInteger, textOf content with
      | .ok doc, .ok text => some (doc, text)
      | _, _ => none
  | .error _ => none

/-- The entries that give a document whose id is not taken, also by none of the entries before. -/
def cleanedFrom (taken : List Int) : List Json → List Json
  | [] => []
  | entry :: rest =>
    match documentOf entry with
    | some (doc, _) =>
      if doc ∈ taken then cleanedFrom taken rest else entry :: cleanedFrom (doc :: taken) rest
    | none => cleanedFrom taken rest

def cleaned (entries : List Json) : List Json := cleanedFrom [] entries

/-- The text that the first entry with a document of some id gives for it. -/
def firstText (entries : List Json) (doc : Int) : Option Text :=
  (entries.filterMap documentOf).lookup doc

theorem documentOf_eq_some_iff {entry id content : Json} (hu : unpack entry = .ok (id, content))
    {doc : Int} {text : Text} :
    documentOf entry = some (doc, text) ↔ content.isEmpty = false ∧ Gives id content doc text := by
  simp only [documentOf, Gives, hu]
  cases content.isEmpty with
  | true => simp
  | false =>
    cases id.toInteger with
    | error e => simp
    | ok d =>
      cases textOf content with
      | error e => simp
      | ok t => simp

theorem accept_of_some {docs : Collection} {entry id content : Json} {doc : Int} {text : Text}
    (hu : unpack entry = .ok (id, content)) (h : documentOf entry = some (doc, text)) :
    accept docs id content = if docs.contains doc then docs else docs.set doc text := by
  obtain ⟨hcontent, hid, htext⟩ := (documentOf_eq_some_iff hu).mp h
  simp [accept, hcontent, hid, htext]

theorem accept_of_none {docs : Collection} {entry id content : Json}
    (hu : unpack entry = .ok (id, content)) (h : documentOf entry = none) :
    accept docs id content = docs := by
  cases hcontent : content.isEmpty with
  | true => simp [accept, hcontent]
  | false =>
    refine accept_of_not_gives fun doc text hgives => ?_
    rw [(documentOf_eq_some_iff hu).mpr ⟨hcontent, hgives⟩] at h
    contradiction

variable {τ : Type} {add : τ → Json → Json → τ × Report} {Holds : Collection → τ → Prop}

/-- Cleaned entries come to the same as all of them where these are taken in to the end, apart from
what is reported. The ids that count as taken are those of the documents that are there. -/
theorem Follows.ingest_cleanedFrom (hfollows : Follows add Holds) {entries : List Json}
    {docs : Collection} {t : τ} (hstopped : (ingest add t entries).stopped = none)
    (h : Holds docs t) {taken : List Int} (htaken : ∀ doc, doc ∈ taken ↔ docs.get? doc ≠ none) :
    ∃ log, ingest add t entries =
      { ingest add t (cleanedFrom taken entries) with log := log } := by
  induction entries generalizing docs t taken with
  | nil => exact ⟨[], rfl⟩
  | cons entry rest ih =>
    obtain ⟨id, content, doc, text, t', hu, hcontent, hgives, hfree, ht', htake⟩ |
      ⟨id, content, line, hu, hno, hrefuse⟩ | ⟨e, hends⟩ := hfollows.ingest_cons h entry
    · have hdocument : documentOf entry = some (doc, text) :=
        (documentOf_eq_some_iff hu).mpr ⟨hcontent, hgives⟩
      have hdoc : doc ∉ taken := fun hdoc => (htaken doc).mp hdoc hfree
      have htaken' : ∀ d, d ∈ doc :: taken ↔ (docs.set doc text).get? d ≠ none := by
        intro d
        rw [List.mem_cons, htaken, Table.get?_set]
        by_cases hd : d = doc <;> simp [hd]
      rw [htake] at hstopped
      obtain ⟨log, hlog⟩ := ih hstopped ht' htaken'
      refine ⟨log, ?_⟩
      simp only [cleanedFrom, hdocument, if_neg hdoc]
      rw [htake, htake, hlog]
    · have hskip : cleanedFrom taken (entry :: rest) = cleanedFrom taken rest := by
        rw [cleanedFrom]
        cases hdocument : documentOf entry with
        | none => rfl
        | some document =>
          obtain ⟨hcontent, hgives⟩ := (documentOf_eq_some_iff hu).mp hdocument
          exact if_pos ((htaken _).mpr (hno _ _ hcontent hgives))
      rw [hrefuse] at hstopped
      obtain ⟨log, hlog⟩ := ih hstopped h htaken
      exact ⟨line :: log, by rw [hskip, hrefuse, hlog]⟩
    · rw [hends] at hstopped
      cases hstopped

theorem Follows.ingest_cleaned (hfollows : Follows add Holds) {entries : List Json} {t : τ}
    (hstopped : (ingest add t entries).stopped = none) (h : Holds .empty t) :
    ∃ log, ingest add t entries = { ingest add t (cleaned entries) with log := log } :=
  hfollows.ingest_cleanedFrom hstopped h fun _ => iff_of_false List.not_mem_nil (absurd rfl)

/-- What is accepted under an id is what the first entry gives that has a document of that id. -/
theorem get?_accepted {entries : List Json}
    (hpairs : ∀ entry ∈ entries, ∃ p, unpack entry = .ok p) (docs : Collection) (doc : Int) :
    (accepted docs entries).get? doc = (docs.get? doc).or (firstText entries doc) := by
  induction entries generalizing docs with
  | nil => exact Option.or_none.symm
  | cons entry rest ih =>
    obtain ⟨⟨⟨id, content⟩, hu⟩, hrest⟩ := List.forall_mem_cons.mp hpairs
    simp only [accepted, hu]
    rw [ih hrest, firstText, firstText]
    cases hdocument : documentOf entry with
    | none => rw [accept_of_none hu hdocument, List.filterMap_cons_none hdocument]
    | some document =>
      obtain ⟨d, text⟩ := document
      rw [accept_of_some hu hdocument, List.filterMap_cons_some hdocument, Table.lookup_entry]
      by_cases hd : doc = d
      · subst hd
        cases hdoc : docs.get? doc with
        | none => simp [Table.contains, hdoc]
        | some old => simp [Table.contains, hdoc]
      · rw [if_neg hd]
        split
        · rfl
        · rw [Table.get?_set_of_ne _ _ hd]

end Ingestion

open Ingestion (unpack cleaned firstText Legible)

namespace MemoryIndex

variable {x : MemoryIndex} {storage : IndexStorage} {now : Text} {name : Json} {entries : List Json}

theorem create_eq_cleaned
    (h : (Ingestion.ingest (addDocument x.analyzer) .empty entries).stopped = none)
    (storage : IndexStorage) (now : Text) (name : Json) :
    ∃ log, x.create storage now name entries =
      { x.create storage now name (cleaned entries) with log := log } := by
  obtain ⟨cleared, e, -, hfails⟩ | ⟨cleared, t, -, -, hbuilds⟩ := create_cases x storage now name
  · obtain ⟨log, hlog⟩ := hfails entries
    obtain ⟨log', hlog'⟩ := hfails (cleaned entries)
    exact ⟨log, by rw [hlog, hlog']⟩
  · obtain ⟨log, hlog⟩ := hbuilds entries
    obtain ⟨log', hlog'⟩ := hbuilds (cleaned entries)
    refine ⟨log, ?_⟩
    obtain ⟨reported, hsame⟩ :=
      (follows x.analyzer).ingest_cleaned h (Tables.represents_empty x.analyzer)
    rw [hlog, hlog']
    simp only [build, hsame]
    split <;> rfl

/-- Of pairs whose ids can be shown, whether an index can be created does not depend on them. -/
theorem failure_create_eq (h : Legible entries) (x : MemoryIndex) (storage : IndexStorage)
    (now : Text) (name : Json) :
    (x.create storage now name entries).failure = (x.create storage now name []).failure := by
  obtain ⟨cleared, e, -, hfails⟩ | ⟨cleared, t, -, -, hbuilds⟩ := create_cases x storage now name
  · obtain ⟨log, hlog⟩ := hfails entries
    obtain ⟨log', hlog'⟩ := hfails []
    rw [hlog, hlog']
  · obtain ⟨log, hlog⟩ := hbuilds entries
    obtain ⟨log', hlog'⟩ := hbuilds []
    rw [hlog, hlog']
    simp only [build, (follows x.analyzer).stopped_eq_none .empty h, Ingestion.ingest]
    refine save_failure (by rfl) ?_ ?_ cleared _
    · exact takes_of_legible x.analyzer x.format.form h
    · exact takes_of_legible x.analyzer x.format.form (List.forall_mem_nil _)

/-- Where an index can be created, the creation fails as the ingestion is ended. -/
theorem failure_of_stopped (h : (x.create storage now name []).failure = none) {e : Failure}
    (hstopped : (Ingestion.ingest (addDocument x.analyzer) .empty entries).stopped = some e) :
    (x.create storage now name entries).failure = some e := by
  obtain ⟨cleared, t, -, -, hbuilds⟩ := exists_build h
  obtain ⟨log, hlog⟩ := hbuilds entries
  rw [hlog]
  simp only [build, hstopped]

end MemoryIndex

namespace DatabaseIndex

variable {x : DatabaseIndex} {storage : IndexStorage} {name : Json} {entries : List Json}

theorem create_eq_cleaned
    (h : (Ingestion.ingest (addDocument x.analyzer) .empty entries).stopped = none)
    (storage : IndexStorage) (name : Json) :
    ∃ log, x.create storage name entries =
      { x.create storage name (cleaned entries) with log := log } := by
  obtain ⟨y, left, e, -, hfails⟩ | ⟨t, cleared, opened, -, -, -, hfills⟩ :=
    create_cases x storage name
  · obtain ⟨log, hlog⟩ := hfails entries
    obtain ⟨log', hlog'⟩ := hfails (cleaned entries)
    exact ⟨log, by rw [hlog, hlog']⟩
  · obtain ⟨log, hlog⟩ := hfills entries
    obtain ⟨log', hlog'⟩ := hfills (cleaned entries)
    refine ⟨log, ?_⟩
    obtain ⟨reported, hsame⟩ :=
      (follows x.analyzer).ingest_cleaned h (Draft.represents_empty x.analyzer)
    rw [hlog, hlog']
    have hanalyzer : (x.close.towards t).analyzer = x.analyzer := rfl
    simp only [fill, hanalyzer, hsame]
    split <;> rfl

/-- A creation that succeeds has taken all entries in. -/
theorem stopped_of_create (h : (x.create storage name entries).failure = none) :
    (Ingestion.ingest (addDocument x.analyzer) .empty entries).stopped = none := by
  obtain ⟨t, cleared, opened, -, -, -, hfills⟩ := exists_fill h
  obtain ⟨log, hlog⟩ := hfills entries
  rw [hlog] at h
  exact (fill_failure (x.close.towards t) opened t (x.home.child t) entries).symm.trans h

theorem failure_create_eq (h : Legible entries) (x : DatabaseIndex) (storage : IndexStorage)
    (name : Json) :
    (x.create storage name entries).failure = (x.create storage name []).failure := by
  obtain ⟨y, left, e, -, hfails⟩ | ⟨t, cleared, opened, -, -, -, hfills⟩ :=
    create_cases x storage name
  · obtain ⟨log, hlog⟩ := hfails entries
    obtain ⟨log', hlog'⟩ := hfails []
    rw [hlog, hlog']
  · obtain ⟨log, hlog⟩ := hfills entries
    obtain ⟨log', hlog'⟩ := hfills []
    rw [hlog, hlog']
    simp only [fill_failure, (follows _).stopped_eq_none .empty h, Ingestion.ingest]

/-- Where an index can be created, the creation fails as the ingestion is ended. -/
theorem failure_of_stopped (h : (x.create storage name []).failure = none) {e : Failure}
    (hstopped : (Ingestion.ingest (addDocument x.analyzer) .empty entries).stopped = some e) :
    (x.create storage name entries).failure = some e := by
  obtain ⟨t, cleared, opened, -, -, -, hfills⟩ := exists_fill h
  obtain ⟨log, hlog⟩ := hfills entries
  rw [hlog]
  exact (fill_failure (x.close.towards t) opened t (x.home.child t) entries).trans hstopped

end DatabaseIndex

namespace Index

variable {x : Index} {storage : IndexStorage} {now : Text} {name : Json} {entries : List Json}

/-- All entries of an index that has been created are pairs. -/
theorem allPairs_of_create (h : (x.create storage now name entries).failure = none) :
    ∀ entry ∈ entries, ∃ p, unpack entry = .ok p := by
  cases x with
  | memory x =>
    obtain ⟨before, -, -, hall⟩ := MemoryIndex.represents_built x.analyzer entries
    exact (hall (MemoryIndex.ingested_of_create h).1).2
  | database x =>
    obtain ⟨before, -, -, hall⟩ := DatabaseIndex.represents_built x.analyzer entries
    exact (hall (DatabaseIndex.stopped_of_create h)).2

/-- An index that has been created is created of the cleaned entries as well, down to what is
stored. -/
theorem create_eq_cleaned (h : (x.create storage now name entries).failure = none) :
    ∃ log, x.create storage now name entries =
      { x.create storage now name (cleaned entries) with log := log } := by
  cases x with
  | memory x =>
    obtain ⟨log, hlog⟩ :=
      x.create_eq_cleaned (MemoryIndex.ingested_of_create h).1 storage now name
    exact ⟨log, by simp only [create, hlog]; rfl⟩
  | database x =>
    obtain ⟨log, hlog⟩ := x.create_eq_cleaned (DatabaseIndex.stopped_of_create h) storage name
    exact ⟨log, by simp only [create, hlog]; rfl⟩

theorem failure_create_eq (h : Legible entries) (x : Index) (storage : IndexStorage) (now : Text)
    (name : Json) :
    (x.create storage now name entries).failure = (x.create storage now name []).failure := by
  cases x with
  | memory x => exact x.failure_create_eq h storage now name
  | database x => exact x.failure_create_eq h storage name

/-- No pair whose id can be shown makes a creation fail. An index that is created is created of the
cleaned pairs as well, down to what is stored, and the two differ only in what is reported. What it
has under an id is the text that the first of the documents with that id gives, and the terms of
that text. -/
theorem create_cleaned (x : Index) (storage : IndexStorage) (now : Text) (name : Json)
    (entries : List Json) :
    (Legible entries → (x.create storage now name entries).failure =
        (x.create storage now name []).failure) ∧
      ((x.create storage now name entries).failure = none →
        (∃ log, x.create storage now name entries =
            { x.create storage now name (cleaned entries) with log := log }) ∧
          AgreeThroughout (x.create storage now name entries).index
            (x.create storage now name (cleaned entries)).index ∧
          ∀ doc, (isWritable doc = true →
              (x.create storage now name entries).index.contentBy (.int doc) =
                .ok (firstText entries doc)) ∧
            ∀ term, (x.create storage now name entries).index.frequencyBy term (.int doc) =
              .ok (((firstText entries doc).map fun text =>
                (x.analyzer.terms text).count term).getD 0 : Nat)) := by
  refine ⟨fun hlegible => failure_create_eq hlegible x storage now name, fun hok => ?_⟩
  obtain ⟨log, hlog⟩ := create_eq_cleaned hok
  have hview := view_create hok
  have hsame : (x.create storage now name entries).index =
      (x.create storage now name (cleaned entries)).index := by
    rw [hlog]
  have hview' := hview
  rw [hsame] at hview'
  have hkind : (x.create storage now name entries).index.SameKind
      (x.create storage now name (cleaned entries)).index :=
    (SameKind.refl x).create ..
  have hfirst (doc : Int) : (Ingestion.accepted .empty entries).get? doc = firstText entries doc :=
    Ingestion.get?_accepted (allPairs_of_create hok) .empty doc
  refine ⟨⟨log, hlog⟩, agreeThroughout_of_view_eq hkind hview hview',
    fun doc => ⟨fun hdoc => ?_, fun term => ?_⟩⟩
  · rw [contentBy_of_view_eq hview, if_pos (canAsk_of_isWritable hdoc _), hfirst]
  · rw [frequencyBy_int, hview, ← hfirst]
    rfl

/-- The theorem at entries of which two are kept, one of them after another one with its id has
failed. -/
theorem create_cleaned_seven_entries :
    let x : Index := .memory (.new ⟨true, defaultPunctuation, .suffix, [['t', 'h', 'e']]⟩
      ⟨false, [['m']]⟩ (.value (.str ['j'])))
    let entries : List Json := [.arr [.int 7, .arr [.int 1]], .arr [.int 7, .str ['c', 'a', 't']],
      .arr [.str [' ', '7'], .str ['d', 'o', 'g']], .arr [.str ['x'], .str ['d', 'o', 'g']],
      .arr [.null, .str ['d', 'o', 'g']], .arr [.int 8, .str []],
      .arr [.bool true, .str ['d', 'o', 'g']]]
    let created := x.create .empty [] (.str ['i']) entries
    Legible entries ∧ created.failure = none ∧
      (∃ log, created = { x.create .empty [] (.str ['i'])
        [.arr [.int 7, .str ['c', 'a', 't']], .arr [.bool true, .str ['d', 'o', 'g']]] with
        log := log }) ∧
      created.index.contentBy (.int 7) = .ok (some ['c', 'a', 't']) ∧
      created.index.contentBy (.int 8) = .ok none := by
  intro x entries created
  have hlegible : Legible entries := by decide +kernel
  obtain ⟨hfailure, hthere⟩ := create_cleaned x .empty [] (.str ['i']) entries
  have hok : created.failure = none := (hfailure hlegible).trans (by rfl)
  obtain ⟨hsame, -, hcontent⟩ := hthere hok
  exact ⟨hlegible, hok, hsame, (hcontent 7).1 (by decide), (hcontent 8).1 (by decide)⟩

/-- A pair whose id has more than `maxDigits` digits makes a creation fail where it is to be
reported, in either kind of index, although it is left out of the cleaned pairs. A name can also be
too long for any index. -/
theorem create_cleaned_fails_for_long_id :
    let a : Analyzer := ⟨true, defaultPunctuation, .suffix, []⟩
    let m : MemoryIndex := .new a ⟨false, [['m']]⟩ (.value (.str "json".toText))
    let d : DatabaseIndex := .new a ⟨false, [['d']]⟩
    let entries : List Json := [.arr [.int (10 ^ maxDigits), .str []]]
    let long : Text := List.replicate 300 'x'
    (∀ entry ∈ entries, ∃ p, unpack entry = .ok p) ∧
      (m.create .empty [] (.str ['i']) entries).failure = some .tooManyDigits ∧
      (d.create .empty (.str ['i']) entries).failure = some .tooManyDigits ∧
      (m.create .empty [] (.str ['i']) (cleaned entries)).failure = none ∧
      (d.create .empty (.str ['i']) (cleaned entries)).failure = none ∧
      (m.create .empty [] (.str long) [.arr [.int 1, .str "cat".toText]]).failure ≠ none := by
  intro a m d entries long
  have hlong : isWritable (10 ^ maxDigits) = false := by
    rw [Bool.eq_false_iff, Ne, isWritable_iff]
    decide +kernel
  have hskipped : Ingestion.skipped (.int (10 ^ maxDigits)) = .error .tooManyDigits := by
    rw [Ingestion.skipped, Ingestion.report, shown_int, hlong]
    rfl
  have hstopped {τ : Type} (add : τ → Json → Json → τ × Ingestion.Report) (t : τ) :
      Ingestion.ingest add t entries = ⟨t, 0, [], some .tooManyDigits⟩ := by
    simp [entries, Ingestion.ingest, unpack, Json.isEmpty, hskipped]
  refine ⟨?_, ?_, ?_, by decide +kernel, by decide +kernel, by decide +kernel⟩
  · intro entry hentry
    rw [List.mem_singleton.mp hentry]
    exact ⟨_, rfl⟩
  · exact MemoryIndex.failure_of_stopped (by decide +kernel)
      (congrArg Ingestion.Result.stopped (hstopped _ _))
  · exact DatabaseIndex.failure_of_stopped (by decide +kernel)
      (congrArg Ingestion.Result.stopped (hstopped _ _))

end Index

end Concordance
