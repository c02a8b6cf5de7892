import Concordance.Proofs.Session
import Concordance.Proofs.StoredDatabases
import Mathlib.Data.List.Induction

/-!
# What is read of an open database after any calls

An index in a database keeps its catalogue beside the open database. A creation that is
stopped by an entry leaves a database open that has documents only, with the catalogue
of an earlier one, and so does a load of such a database. Every other open
database has the catalogue that is kept, and all that is read of it fits together.
-/
namespace Concordance

namespace IndexView

/-- Terms are counted in the documents in which they occur, which are there. -/
def CountsTerms (v : IndexView) : Prop :=
  ∀ term, ∃ docs, v.postings term = .ok docs ∧ v.documentFrequency term = .ok docs.ids.length ∧
    ∀ doc, (∃ n, v.frequency term doc = .ok n ∧ (0 < n ↔ doc ∈ docs)) ∧
      (doc ∈ docs → ∃ text, v.content doc = .ok (some text))

/-- Everything that is read fits together, where the documents of the given ids are listed. -/
structure Consistent (v : IndexView) (ids : List Int) : Prop where
  documents : v.documents = .ok ids
  documentCount : v.documentCount = .ok ids.length
  content : ∀ doc, ∃ content, v.content doc = .ok content ∧ (content ≠ none ↔ doc ∈ ids)
  counts : v.CountsTerms
  postings : ∀ term docs, v.postings term = .ok docs → ∀ doc ∈ docs, doc ∈ ids

end IndexView

namespace Collection

variable (a : Analyzer) (docs : Collection)

theorem countsTerms : (view a docs).CountsTerms := by
  intro term
  refine ⟨_, rfl, ?_, fun doc => ⟨⟨_, rfl, ?_⟩, fun hdoc => ?_⟩⟩
  · have hn : (DocSet.ofList (having a docs term)).ids.Nodup :=
      (DocSet.ofList (having a docs term)).increasing.imp fun hlt => by omega
    rw [length_eq_having hn fun d => DocSet.mem_ofList]
    rfl
  · rw [DocSet.mem_ofList, ← frequency_pos]
    omega
  · obtain ⟨text, htext, -⟩ := mem_having.mp (DocSet.mem_ofList.mp hdoc)
    exact ⟨text, congrArg Except.ok htext⟩

theorem consistent : (view a docs).Consistent (sortBy (fun d e => d ≤ e) docs.keys) where
  documents := rfl
  documentCount := by
    rw [(perm_sortBy _).length_eq, Table.length_keys]
    rfl
  content doc := by
    refine ⟨_, rfl, ?_⟩
    rw [(perm_sortBy _).mem_iff, Table.mem_keys, Option.isSome_iff_ne_none]
  counts := countsTerms a docs
  postings term found hfound doc hdoc := by
    cases hfound
    obtain ⟨text, htext, -⟩ := mem_having.mp (DocSet.mem_ofList.mp hdoc)
    rw [(perm_sortBy _).mem_iff, Table.mem_keys, htext]
    rfl

end Collection

namespace Database

variable {a : Analyzer} {db : Database}

/-- Terms are counted in a database as a creation leaves it, whatever catalogue is kept. -/
theorem Left.countsTerms (h : db.Left a) (kept : Json) :
    (DatabaseIndex.viewOf db kept).CountsTerms := by
  cases h with
  | begun docs documents postings catalogue =>
    intro term
    refine ⟨.empty, ?_, ?_, fun doc => ⟨⟨0, ?_, by simp⟩, fun hdoc => by simp at hdoc⟩⟩
    all_goals
      simp only [DatabaseIndex.viewOf, postings term]
      rfl
  | complete docs c represents catalogue lists =>
    have hcounts := Collection.countsTerms a docs
    rw [← represents.view_eq lists] at hcounts
    exact hcounts

end Database

namespace DatabaseIndex

variable {a : Analyzer} {x : DatabaseIndex}

/-- An index with an open database and its catalogue is read as a collection is. -/
theorem Catalogued.consistent (h : x.Catalogued)
    (hopened : ∀ db, x.opened = some db → db.Left a) : ∃ ids, x.view.Consistent ids := by
  obtain ⟨db, c, hdb, hc, hkept⟩ := h
  obtain ⟨docs, hrep, hlists⟩ := (hopened db hdb).represents hc
  have hview : x.view = Collection.view a docs := by
    rw [view, hdb, hkept]
    exact hrep.view_eq hlists
  rw [hview]
  exact ⟨_, Collection.consistent a docs⟩

end DatabaseIndex

namespace Session

/-- The database that is open. -/
def database? (s : Session) : Option Database :=
  match s.index with
  | .memory _ => none
  | .database x => x.opened

/-- A call fails after it has opened a database, which stays open. -/
def Strands (s : Session) (c : Call) : Prop :=
  (s.outcome c).failure ≠ none ∧ (s.after c).database? ≠ none ∧ (s.after c).index ≠ s.index

/-- The database that is open after some calls has been left open by one among them that failed. -/
def Stranded (s : Session) (calls : List Call) : Prop :=
  ∃ before c rest, calls = before ++ c :: rest ∧ (s.run before).Strands c ∧
    (s.run calls).index = ((s.run before).after c).index

/-- A session stays stranded as long as its index does not change. -/
theorem Stranded.append {s : Session} {calls : List Call} (h : s.Stranded calls) {c : Call}
    (hindex : ((s.run calls).after c).index = (s.run calls).index) : s.Stranded (calls ++ [c]) := by
  obtain ⟨before, stranding, rest, rfl, hstrands, heq⟩ := h
  refine ⟨before, stranding, rest ++ [c], by simp, hstrands, ?_⟩
  rw [run_append, hindex, heq]

/-- What calls keep of a session with an index in a database: all databases are as creations leave
them. -/
structure KeepsDatabases (a : Analyzer) (s : Session) : Prop where
  database : ∃ x, s.index = .database x ∧ x.analyzer = a ∧
    ∀ db, x.opened = some db → db.Left a
  stored : DatabaseIndex.AllLeft a s.storage

/-- What comes of a call is what comes of an operation on the index that leaves databases as
creations do. -/
theorem KeepsDatabases.leaves {a : Analyzer} {s : Session} (h : KeepsDatabases a s) (c : Call) :
    ∃ x o, s.index = .database x ∧ x.analyzer = a ∧ x.Leaves o ∧
      o.index.analyzer = a ∧ s.outcome c = o.map .database := by
  obtain ⟨⟨x, hx, rfl, hopened⟩, hstored⟩ := h
  obtain ⟨index, storage⟩ := s
  simp only at hx hstored
  subst hx
  cases c with
  | create now name entries =>
    exact ⟨x, _, rfl, rfl, DatabaseIndex.leaves_create hstored name entries,
      congrArg Prod.fst (x.settings_create storage name entries), rfl⟩
  | load path =>
    exact ⟨x, _, rfl, rfl, DatabaseIndex.leaves_load hstored hopened path,
      congrArg Prod.fst (x.settings_load storage path), rfl⟩
  | delete name =>
    exact ⟨x, _, rfl, rfl, DatabaseIndex.leaves_delete hstored hopened name,
      congrArg Prod.fst (x.settings_delete storage name), rfl⟩

theorem KeepsDatabases.after {a : Analyzer} {s : Session} (h : KeepsDatabases a s) (c : Call) :
    KeepsDatabases a (s.after c) := by
  obtain ⟨x, o, -, rfl, hleaves, hanalyzer, ho⟩ := h.leaves c
  rw [Session.after, ho]
  exact ⟨⟨o.index, rfl, hanalyzer, hleaves.opened⟩, hleaves.stored⟩

/-- A call leaves the index alone, or with no open database or one with its catalogue, or it
strands. -/
theorem KeepsDatabases.index_after {a : Analyzer} {s : Session} (h : KeepsDatabases a s)
    (c : Call) :
    (s.after c).index = s.index ∨ (s.after c).database? = none ∨
      (∃ x, (s.after c).index = .database x ∧ x.Catalogued) ∨ s.Strands c := by
  obtain ⟨x, o, hx, -, hleaves, -, ho⟩ := h.leaves c
  have hafter : (s.after c).index = .database o.index := by rw [Session.after, ho]; rfl
  have hdatabase : (s.after c).database? = o.index.opened := by rw [database?, hafter]
  obtain hsame | hclosed | hfails | hcatalogued := hleaves.catalogued
  · exact .inl (by rw [hafter, hsame, hx])
  · exact .inr (.inl (by rw [hdatabase, hclosed]))
  · by_cases hsame : (s.after c).index = s.index
    · exact .inl hsame
    · by_cases hclosed : (s.after c).database? = none
      · exact .inr (.inl hclosed)
      · refine .inr (.inr (.inr ⟨?_, hclosed, hsame⟩))
        rw [ho]
        exact hfails
  · exact .inr (.inr (.inl ⟨o.index, hafter, hcatalogued⟩))

/-- An open database has the catalogue that is kept, or it is stranded. -/
theorem KeepsDatabases.index_run {a : Analyzer} {s : Session} (h : KeepsDatabases a s)
    (hs : s.database? = none) (calls : List Call) :
    (s.run calls).database? = none ∨
      (∃ x, (s.run calls).index = .database x ∧ x.Catalogued) ∨ s.Stranded calls := by
  -- What a call leaves is told by the session before it, so the last call is taken off.
  induction calls using List.reverseRecOn with
  | nil => exact .inl hs
  | append_singleton calls c ih =>
    have hkeeps : KeepsDatabases a (s.run calls) := run_invariant (fun _ c h => h.after c) h calls
    obtain hsame | hclosed | hcatalogued | hstrands := hkeeps.index_after c
    · have hdatabase : ((s.run calls).after c).database? = (s.run calls).database? := by
        rw [database?, hsame, database?]
      obtain hclosed | hcatalogued | hstranded := ih
      · exact .inl (by rw [run_append, hdatabase, hclosed])
      · exact .inr (.inl (by rwa [run_append, hsame]))
      · exact .inr (.inr (hstranded.append hsame))
    · exact .inl (by rwa [run_append])
    · exact .inr (.inl (by rwa [run_append]))
    · exact .inr (.inr ⟨calls, c, [], rfl, hstrands, by rw [run_append]⟩)

/-- After any calls on a new index, where no database was stored, what is read of an open database
fits together unless it was left open by a call that failed. Even then terms are counted in the
documents in which they occur. -/
theorem consistent_of_not_stranded {a : Analyzer} {home : Path} {storage : IndexStorage}
    (hstorage : ∀ p db, storage.node? p ≠ some (.file (.database db))) {calls : List Call}
    (hopened : (run ⟨.database (.new a home), storage⟩ calls).database? ≠ none) :
    let s : Session := ⟨.database (.new a home), storage⟩
    (s.run calls).index.view.CountsTerms ∧
      (¬s.Stranded calls → ∃ ids, (s.run calls).index.view.Consistent ids) := by
  intro s
  have hstart : KeepsDatabases a s :=
    ⟨⟨_, rfl, rfl, nofun⟩, fun p db hp => absurd hp (hstorage p db)⟩
  have hkeeps : KeepsDatabases a (s.run calls) :=
    run_invariant (fun _ c h => h.after c) hstart calls
  obtain ⟨x, hx, -, hleft⟩ := hkeeps.database
  constructor
  · rw [database?, hx] at hopened
    change x.opened ≠ none at hopened
    obtain ⟨db, hdb⟩ := Option.ne_none_iff_exists'.mp hopened
    rw [hx, Index.view, DatabaseIndex.view, hdb]
    exact (hleft db hdb).countsTerms x.catalogue
  · intro hnot
    obtain hclosed | ⟨y, hy, hcatalogued⟩ | hstranded := hstart.index_run rfl calls
    · exact absurd hclosed hopened
    · rw [hx] at hy
      cases hy
      rw [hx]
      exact hcatalogued.consistent hleft
    · exact absurd hstranded hnot

/-- The theorem at a creation that stops at an entry that is no pair, and one after it that does
not. -/
theorem consistent_of_not_stranded_created_again :
    let s : Session :=
      ⟨.database (.new ⟨true, defaultPunctuation, .suffix, []⟩ ⟨false, [['r']]⟩), .empty⟩
    let stops : Call := .create [] (.str ['x']) [.arr [.int 1, .str "cat".toText], .int 7]
    let returns : Call := .create [] (.str ['y']) [.arr [.int 2, .str "cat sleeps".toText]]
    (s.run [stops, returns]).index.view.CountsTerms ∧
      ∃ ids, (s.run [stops, returns]).index.view.Consistent ids := by
  intro s stops returns
  have hopened : (s.run [stops, returns]).database? ≠ none := by
    have hsome : (s.run [stops, returns]).database?.isSome = true := by decide +kernel
    exact Option.isSome_iff_ne_none.mp hsome
  have hstranded : ¬s.Stranded [stops, returns] := by
    rintro ⟨before, c, rest, heq, hstrands, hindex⟩
    rcases before with _ | ⟨_, _ | ⟨_, before⟩⟩
    · -- The second creation has put another index in the place of what the first one left.
      obtain ⟨rfl, -⟩ := List.cons.inj heq
      have hlast : (s.run [stops, returns]).index.view.documents.isOk = true := by decide +kernel
      have hfirst : (s.after stops).index.view.documents.isOk = false := by decide +kernel
      rw [hindex] at hlast
      exact absurd (hlast.symm.trans hfirst) (by decide)
    · obtain ⟨hfirst, heq⟩ := List.cons.inj heq
      obtain ⟨rfl, -⟩ := List.cons.inj heq
      have hreturns : ((s.run [stops]).outcome returns).failure = none := by decide +kernel
      rw [← hfirst] at hstrands
      exact hstrands.1 hreturns
    · have hlength := congrArg List.length heq
      simp at hlength
  obtain ⟨hcounts, hconsistent⟩ := consistent_of_not_stranded
    (fun p db => Storage.node?_empty_ne_file p (Content.database db)) hopened
  exact ⟨hcounts, hconsistent hstranded⟩

/-- What is read of a database that was left open by a call that failed need not fit together: a
creation stops at its second entry, with the catalogue of the index that was created before. -/
theorem not_consistent_of_stranded :
    let pair (d : Int) (text : Text) : Json := .arr [.int d, .str text]
    let s := run
      ⟨.database (.new ⟨true, defaultPunctuation, .suffix, []⟩ ⟨false, [['r']]⟩), .empty⟩
      [.create [] (.str ['y']) [pair 2 "cat sleeps".toText, pair 3 "dog barks".toText],
        .create [] (.str ['x']) [pair 1 "cat".toText, .int 7]]
    s.database? ≠ none ∧ ¬∃ ids, s.index.view.Consistent ids := by
  intro pair s
  have hsome : s.database?.isSome = true := by decide +kernel
  have hdocuments : s.index.view.documents = .ok [2, 3] := by decide +kernel
  have hcontent : s.index.view.content 1 = .ok (some "cat".toText) := by decide +kernel
  refine ⟨Option.isSome_iff_ne_none.mp hsome, fun ⟨ids, h⟩ => ?_⟩
  obtain ⟨content, hfound, hiff⟩ := h.content 1
  rw [h.documents] at hdocuments
  rw [hcontent] at hfound
  cases hdocuments
  cases hfound
  exact absurd (hiff.mp (Option.some_ne_none _)) (by decide)

end Session

end Concordance
