import Concordance.Engine
import Concordance.Index
import Concordance.Proofs.DatabaseIndex
import Concordance.Proofs.MemoryIndex

/-!
# The two kinds of indexes agree

An index in memory and one in a database that have been created of the same entries
are read as the same collection. So they answer alike, and a search finds the same
documents in both, in the same order and with the same scores.
-/
namespace Concordance

namespace Postings

theorem findBy_int (p : Postings Int) (doc : Int) : p.findBy (.int doc) = .ok (p.find? doc) := by
  unfold findBy
  split
  · next hnone =>
    rw [find?, List.isEmpty_iff.mp hnone]
    rfl
  · rfl

end Postings

namespace Index

/-- Two indexes are of the same kind. -/
inductive SameKind : Index → Index → Prop where
  | memory (x y : MemoryIndex) : SameKind (.memory x) (.memory y)
  | database (x y : DatabaseIndex) : SameKind (.database x) (.database y)

namespace SameKind

variable {x y z : Index}

theorem refl (x : Index) : x.SameKind x := by
  cases x with
  | memory x => exact .memory x x
  | database x => exact .database x x

theorem symm (h : x.SameKind y) : y.SameKind x := by
  cases h with
  | memory x y => exact .memory y x
  | database x y => exact .database y x

theorem trans (h : x.SameKind y) (h' : y.SameKind z) : x.SameKind z := by
  cases h with
  | memory x y =>
    cases h' with
    | memory y z => exact .memory x z
  | database x y =>
    cases h' with
    | database y z => exact .database x z

/-- A creation makes no index of another kind. -/
theorem create (h : x.SameKind y) (storage storage' : IndexStorage) (now now' : Text)
    (name name' : Json) (entries entries' : List Json) :
    (x.create storage now name entries).index.SameKind
      (y.create storage' now' name' entries').index := by
  cases h with
  | memory x y => exact .memory _ _
  | database x y => exact .database _ _

end SameKind

/-- Whether an index can be asked about a document: one in memory about each, one in a database
about those whose ids can be shown. -/
def canAsk (x : Index) (doc : Int) : Bool :=
  match x with
  | memory _ => true
  | database _ => isWritable doc

theorem canAsk_of_isWritable {doc : Int} (h : isWritable doc = true) (x : Index) :
    x.canAsk doc = true := by
  cases x with
  | memory x => rfl
  | database x => exact h

theorem shown_int (doc : Int) :
    (Json.int doc).shown =
      if isWritable doc then .ok (decimal doc) else .error .tooManyDigits := rfl

/-- What is read by an id is what a search reads, where the id can be asked for. -/
theorem contentBy_int (x : Index) (hloaded : ∃ s, x.view.postings [] = .ok s) (doc : Int) :
    x.contentBy (.int doc) =
      if x.canAsk doc then x.view.content doc else .error .tooManyDigits := by
  obtain ⟨s, hs⟩ := hloaded
  cases x with
  | memory x =>
    simp only [contentBy, reading, canAsk, if_true, view, MemoryIndex.view, MemoryIndex.viewOf]
    cases x.tables.terms with
    | none => rfl
    | some terms => rfl
  | database x =>
    simp only [view, DatabaseIndex.view] at hs
    simp only [contentBy, reading, view, DatabaseIndex.view, shown_int]
    cases hopened : x.opened with
    | none =>
      rw [hopened] at hs
      cases hs
    | some db =>
      by_cases hdoc : isWritable doc = true
      · have hask : (database x).canAsk doc = true := hdoc
        rw [if_pos hdoc, if_pos hask]
        rfl
      · have hask : ¬(database x).canAsk doc = true := hdoc
        rw [if_neg hdoc, if_neg hask]
        rfl

theorem lengthBy_int (x : Index) (hloaded : ∃ s, x.view.postings [] = .ok s) (doc : Int) :
    x.lengthBy (.int doc) =
      if x.canAsk doc then x.view.length doc else .error .tooManyDigits := by
  obtain ⟨s, hs⟩ := hloaded
  cases x with
  | memory x =>
    simp only [lengthBy, reading, canAsk, if_true, view, MemoryIndex.view, MemoryIndex.viewOf]
    cases x.tables.terms with
    | none => rfl
    | some terms => rfl
  | database x =>
    simp only [view, DatabaseIndex.view] at hs
    simp only [lengthBy, reading, view, DatabaseIndex.view, shown_int]
    cases hopened : x.opened with
    | none =>
      rw [hopened] at hs
      cases hs
    | some db =>
      by_cases hdoc : isWritable doc = true
      · have hask : (database x).canAsk doc = true := hdoc
        rw [if_pos hdoc, if_pos hask]
        rfl
      · have hask : ¬(database x).canAsk doc = true := hdoc
        rw [if_neg hdoc, if_neg hask]
        rfl

theorem frequencyBy_int (x : Index) (term : Text) (doc : Int) :
    x.frequencyBy term (.int doc) = x.view.frequency term doc := by
  cases x with
  | memory x =>
    simp only [frequencyBy, reading, view, MemoryIndex.view, MemoryIndex.viewOf]
    cases x.tables.terms with
    | none => rfl
    | some terms =>
      simp only [InvertedIndex.frequencyBy, InvertedIndex.frequency]
      cases terms.postings? term with
      | none => rfl
      | some p =>
        simp only [Postings.findBy_int]
        rfl
  | database x =>
    simp only [frequencyBy, reading, view, DatabaseIndex.view]
    cases x.opened with
    | none => rfl
    | some db => rfl

/-- Two indexes give the same answers, and give them, to whatever is asked for by texts and by
integers that can be written. -/
structure Agree (x y : Index) : Prop where
  postings : ∀ term, ∃ docs, x.view.postings term = .ok docs ∧ y.view.postings term = .ok docs
  frequency : ∀ term doc, ∃ n,
    x.frequencyBy term (.int doc) = .ok n ∧ y.frequencyBy term (.int doc) = .ok n
  length : ∀ doc, isWritable doc = true → ∃ n,
    x.lengthBy (.int doc) = .ok n ∧ y.lengthBy (.int doc) = .ok n
  documentFrequency : ∀ term, ∃ n,
    x.view.documentFrequency term = .ok n ∧ y.view.documentFrequency term = .ok n
  documentCount : ∃ n, x.view.documentCount = .ok n ∧ y.view.documentCount = .ok n
  content : ∀ doc, isWritable doc = true → ∃ text,
    x.contentBy (.int doc) = .ok text ∧ y.contentBy (.int doc) = .ok text
  documents : ∃ docs, x.view.documents = .ok docs ∧ y.view.documents = .ok docs

/-- Two indexes agree, and where one fails to tell of an integer, so does the other. -/
structure AgreeThroughout (x y : Index) : Prop extends Agree x y where
  sameLength : ∀ doc, x.lengthBy (.int doc) = y.lengthBy (.int doc)
  sameContent : ∀ doc, x.contentBy (.int doc) = y.contentBy (.int doc)

section Views

variable {a : Analyzer} {docs : Collection} {x y : Index}

theorem exists_postings_of_view_eq (h : x.view = Collection.view a docs) :
    ∃ s, x.view.postings [] = .ok s := by
  rw [h]
  exact ⟨_, rfl⟩

theorem contentBy_of_view_eq (h : x.view = Collection.view a docs) (doc : Int) :
    x.contentBy (.int doc) =
      if x.canAsk doc then .ok (docs.get? doc) else .error .tooManyDigits := by
  rw [contentBy_int x (exists_postings_of_view_eq h), h]
  rfl

theorem lengthBy_of_view_eq (h : x.view = Collection.view a docs) (doc : Int) :
    x.lengthBy (.int doc) = if x.canAsk doc
      then .ok (max (((docs.get? doc).map fun text => (a.terms text).length).getD 1) 1 : Nat)
      else .error .tooManyDigits := by
  rw [lengthBy_int x (exists_postings_of_view_eq h), h]
  rfl

theorem agree_of_view_eq (hx : x.view = Collection.view a docs)
    (hy : y.view = Collection.view a docs) : Agree x y := by
  constructor
  · intro term
    rw [hx, hy]
    exact ⟨_, rfl, rfl⟩
  · intro term doc
    rw [frequencyBy_int, frequencyBy_int, hx, hy]
    exact ⟨_, rfl, rfl⟩
  · intro doc hdoc
    rw [lengthBy_of_view_eq hx, lengthBy_of_view_eq hy, if_pos (canAsk_of_isWritable hdoc x),
      if_pos (canAsk_of_isWritable hdoc y)]
    exact ⟨_, rfl, rfl⟩
  · intro term
    rw [hx, hy]
    exact ⟨_, rfl, rfl⟩
  · rw [hx, hy]
    exact ⟨_, rfl, rfl⟩
  · intro doc hdoc
    rw [contentBy_of_view_eq hx, contentBy_of_view_eq hy, if_pos (canAsk_of_isWritable hdoc x),
      if_pos (canAsk_of_isWritable hdoc y)]
    exact ⟨_, rfl, rfl⟩
  · rw [hx, hy]
    exact ⟨_, rfl, rfl⟩

theorem SameKind.canAsk_eq (h : x.SameKind y) (doc : Int) : x.canAsk doc = y.canAsk doc := by
  cases h <;> rfl

/-- Indexes of one kind that are read as one collection are never told apart by an integer. -/
theorem agreeThroughout_of_view_eq (hkind : x.SameKind y) (hx : x.view = Collection.view a docs)
    (hy : y.view = Collection.view a docs) : AgreeThroughout x y where
  toAgree := agree_of_view_eq hx hy
  sameLength doc := by rw [lengthBy_of_view_eq hx, lengthBy_of_view_eq hy, hkind.canAsk_eq]
  sameContent doc := by rw [contentBy_of_view_eq hx, contentBy_of_view_eq hy, hkind.canAsk_eq]

end Views

/-- An index of either kind that has been created is read as the documents it has accepted. -/
theorem view_create {x : Index} {storage : IndexStorage} {now : Text} {name : Json}
    {entries : List Json} (h : (x.create storage now name entries).failure = none) :
    (x.create storage now name entries).index.view =
      Collection.view x.analyzer (Ingestion.accepted .empty entries) := by
  cases x with
  | memory x => exact MemoryIndex.view_create h
  | database x => exact DatabaseIndex.view_create h

/-- An index in memory and one in a database that have been created of the same entries agree on all
terms and on all integers that can be written, and every query has the same hits and the same
answer, or fails in the same way, in both. -/
theorem backends_agree {m : MemoryIndex} {d : DatabaseIndex} (hanalyzer : m.analyzer = d.analyzer)
    {storage storage' : IndexStorage} {now : Text} {name name' : Json} {entries : List Json}
    (hm : (m.create storage now name entries).failure = none)
    (hd : (d.create storage' name' entries).failure = none) :
    Agree (.memory (m.create storage now name entries).index)
        (.database (d.create storage' name' entries).index) ∧
      ∀ (e : Engine) (query : Text) (limit : Json),
        e.search (view (.memory (m.create storage now name entries).index)) query =
            e.search (view (.database (d.create storage' name' entries).index)) query ∧
          e.answer (view (.memory (m.create storage now name entries).index)) query limit =
            e.answer (view (.database (d.create storage' name' entries).index)) query limit := by
  have hmemory := MemoryIndex.view_create hm
  have hdatabase := DatabaseIndex.view_create hd
  rw [← hanalyzer] at hdatabase
  refine ⟨agree_of_view_eq hmemory hdatabase, fun e query limit => ?_⟩
  rw [view, view, hmemory, hdatabase]
  exact ⟨rfl, rfl⟩

/-- The theorem at two documents, one of them twice, one without content and one without an id. -/
theorem backends_agree_five_entries :
    let a : Analyzer := ⟨true, defaultPunctuation, .suffix, [['t', 'h', 'e']]⟩
    let m : MemoryIndex := .new a ⟨false, [['m']]⟩ (.value (.str ['j']))
    let d : DatabaseIndex := .new a ⟨false, [['d']]⟩
    let entries : List Json := [.arr [.int 2, .str ['c', 'a', 't', 's']],
      .arr [.str [' ', '1'], .str ['A', ' ', 'd', 'o', 'g', '.']],
      .arr [.int 2, .str ['d', 'o', 'g']], .arr [.int 3, .str []],
      .arr [.str ['x'], .str ['d', 'o', 'g']]]
    Agree (.memory (m.create .empty [] (.str ['i']) entries).index)
        (.database (d.create .empty (.str ['i']) entries).index) ∧
      ∀ (e : Engine) (query : Text) (limit : Json),
        e.search (view (.memory (m.create .empty [] (.str ['i']) entries).index)) query =
            e.search (view (.database (d.create .empty (.str ['i']) entries).index)) query ∧
          e.answer (view (.memory (m.create .empty [] (.str ['i']) entries).index)) query limit =
            e.answer (view (.database (d.create .empty (.str ['i']) entries).index)) query limit :=
  backends_agree rfl (by rfl) (by rfl)

/-- An index in memory and one in a database do not agree on an integer of more than `maxDigits`
digits, which only the one in memory can be asked for, nor on a truth value, which is no key of a
database. -/
theorem backends_disagree_on_ids :
    let a : Analyzer := ⟨true, defaultPunctuation, .suffix, []⟩
    let m : MemoryIndex := .new a ⟨false, [['m']]⟩ (.value (.str "json".toText))
    let d : DatabaseIndex := .new a ⟨false, [['d']]⟩
    let entries : List Json := [.arr [.int 1, .str "cat".toText]]
    let memory := m.create .empty [] (.str ['i']) entries
    let database := d.create .empty (.str ['i']) entries
    memory.failure = none ∧ database.failure = none ∧
      contentBy (.memory memory.index) (.int (10 ^ maxDigits)) = .ok none ∧
      contentBy (.database database.index) (.int (10 ^ maxDigits)) = .error .tooManyDigits ∧
      contentBy (.memory memory.index) (.bool true) = .ok (some "cat".toText) ∧
      contentBy (.database database.index) (.bool true) = .ok none := by
  intro a m d entries memory database
  have hmemory : memory.failure = none := by decide +kernel
  have hdatabase : database.failure = none := by decide +kernel
  have hlong : isWritable (10 ^ maxDigits) = false := by
    rw [Bool.eq_false_iff, Ne, isWritable_iff]
    decide +kernel
  have hother : (10 ^ maxDigits : Int) ≠ 1 := by decide +kernel
  have hview : view (.memory memory.index) = Collection.view a (Table.set .empty 1 "cat".toText) :=
    MemoryIndex.view_create hmemory
  have hview' :
      view (.database database.index) = Collection.view a (Table.set .empty 1 "cat".toText) :=
    DatabaseIndex.view_create hdatabase
  have hkept : contentBy (.memory memory.index) (.int (10 ^ maxDigits)) = .ok none := by
    rw [contentBy_of_view_eq hview, canAsk, if_pos rfl, Table.get?_set_of_ne .empty _ hother]
    rfl
  have hrefused : contentBy (.database database.index) (.int (10 ^ maxDigits)) =
      .error .tooManyDigits := by
    rw [contentBy_of_view_eq hview', canAsk, hlong]
    rfl
  exact ⟨hmemory, hdatabase, hkept, hrefused, by decide +kernel, by decide +kernel⟩

end Index

end Concordance
