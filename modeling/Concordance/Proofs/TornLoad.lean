import Concordance.Proofs.Coherence
import Concordance.Proofs.Session
import Concordance.Proofs.StoredTables

/-!
# The tables of an index fit together after any calls

The tables that an index holds after any calls are those of one collection, unless a load
that failed halfway has left some of them replaced and the others not. They fit together
again after the next creation or load that gets through the tables. No two terms of what
is created may be read as one.
-/
namespace Concordance

open Tables (StoredWhole)

namespace MemoryIndex

variable {x : MemoryIndex} {storage : IndexStorage}

/-- A creation leaves the tables alone, or they are those of its entries then. -/
theorem tables_create (x : MemoryIndex) (storage : IndexStorage) (now : Text) (name : Json)
    (entries : List Json) :
    (x.create storage now name entries).index.tables = x.tables ∨
      ∃ docs t, (x.create storage now name entries).index.tables = .all t ∧
        Tables.Represents x.analyzer docs t := by
  obtain ⟨cleared, e, -, hfails⟩ | ⟨cleared, t, -, -, hbuilds⟩ := create_cases x storage now name
  · obtain ⟨log, hlog⟩ := hfails entries
    rw [hlog]
    exact .inl rfl
  · obtain ⟨log, hlog⟩ := hbuilds entries
    rw [hlog]
    obtain ⟨before, -, hbuilt, -⟩ := represents_built x.analyzer entries
    exact .inr ⟨_, _, build_tables _ cleared now _ entries, hbuilt⟩

/-- After a load that does not fail the tables are those of a collection. -/
theorem tables_load (h : StoredWhole x.analyzer storage) {path : Path}
    (hok : (x.load storage path).failure = none) :
    ∃ docs t, (x.load storage path).index.tables = .all t ∧
      Tables.Represents x.analyzer docs t := by
  obtain ⟨log, e, heq⟩ | ⟨metadata, y, -, ⟨log, hrestore, heq⟩ | ⟨e, -, heq⟩⟩ :=
    x.load_cases storage path
  · rw [heq] at hok
    contradiction
  · rw [heq]
    exact h.load (tables_load_of_restore hrestore)
  · rw [heq] at hok
    contradiction

end MemoryIndex

namespace Session

/-- The tables that an index in memory holds. -/
def held (s : Session) : HeldTables :=
  match s.index with
  | .memory x => x.tables
  | .database _ => .none

/-- A call is a load that fails after it has replaced a table. -/
def Tears (s : Session) : Call → Prop
  | .load path => (s.outcome (.load path)).failure ≠ none ∧ (s.after (.load path)).held ≠ s.held
  | _ => False

/-- The tables that are held after some calls have been left by a load among them that failed
halfway. -/
def Torn (s : Session) (calls : List Call) : Prop :=
  ∃ before c rest, calls = before ++ c :: rest ∧ (s.run before).Tears c ∧
    (s.run calls).held = ((s.run before).after c).held

/-- A torn session stays torn as long as its tables do not change. -/
theorem Torn.append {s : Session} {calls : List Call} (h : s.Torn calls) {c : Call}
    (hheld : ((s.run calls).after c).held = (s.run calls).held) : s.Torn (calls ++ [c]) := by
  obtain ⟨before, torn, rest, rfl, htears, heq⟩ := h
  refine ⟨before, torn, rest ++ [c], by simp, htears, ?_⟩
  rw [run_append, hheld, heq]

/-- The terms of what a call creates are read as they are written. -/
def KeepsTerms (s : Session) : Call → Prop
  | .create _ _ entries => s.index.KeepsTerms entries
  | _ => True

/-- Such calls one after the other. -/
def AllKeepTerms (s : Session) : List Call → Prop
  | [] => True
  | c :: rest => s.KeepsTerms c ∧ (s.after c).AllKeepTerms rest

theorem AllKeepTerms.of_append {s : Session} {calls : List Call} {c : Call}
    (h : s.AllKeepTerms (calls ++ [c])) : s.AllKeepTerms calls ∧ (s.run calls).KeepsTerms c := by
  induction calls generalizing s with
  | nil => exact ⟨trivial, h.1⟩
  | cons first rest ih =>
    obtain ⟨hrest, hlast⟩ := ih h.2
    exact ⟨⟨h.1, hrest⟩, hlast⟩

/-- What calls keep of a session with an index in memory: what it has stored is whole. -/
structure Keeps (a : Analyzer) (s : Session) : Prop where
  memory : ∃ x, s.index = .memory x ∧ x.analyzer = a
  stored : StoredWhole a s.storage

theorem Keeps.after {a : Analyzer} {s : Session} (h : Keeps a s) {c : Call}
    (hc : s.KeepsTerms c) : Keeps a (s.after c) := by
  obtain ⟨⟨x, hx, rfl⟩, hstored⟩ := h
  obtain ⟨index, storage⟩ := s
  simp only at hx hstored
  subst hx
  cases c with
  | create now name entries =>
    exact ⟨⟨_, rfl, x.analyzer_create storage now name entries⟩,
      x.storedWhole_create hstored now name hc⟩
  | load path =>
    refine ⟨⟨_, rfl, x.analyzer_load storage path⟩, ?_⟩
    show StoredWhole x.analyzer (x.load storage path).storage
    rw [x.storage_load]
    exact hstored
  | delete name =>
    refine ⟨⟨_, rfl, ?_⟩, x.storedWhole_delete hstored name⟩
    rw [x.index_delete]

/-- A call leaves the tables alone, or it replaces all of them by those of a collection, or it is a
load that fails halfway. -/
theorem Keeps.held_after {a : Analyzer} {s : Session} (h : Keeps a s) (c : Call) :
    (s.after c).held = s.held ∨ (∃ docs t, (s.after c).held = .all t ∧ Tables.Represents a docs t) ∨
      s.Tears c := by
  obtain ⟨⟨x, hx, rfl⟩, hstored⟩ := h
  obtain ⟨index, storage⟩ := s
  simp only at hx hstored
  subst hx
  cases c with
  | create now name entries =>
    obtain hsame | hwhole := x.tables_create storage now name entries
    · exact .inl hsame
    · exact .inr (.inl hwhole)
  | load path =>
    cases hfailure : (x.load storage path).failure with
    | none => exact .inr (.inl (MemoryIndex.tables_load hstored hfailure))
    | some e =>
      by_cases hsame : (Session.after ⟨.memory x, storage⟩ (.load path)).held =
          (Session.mk (.memory x) storage).held
      · exact .inl hsame
      · refine .inr (.inr ⟨?_, hsame⟩)
        show (x.load storage path).failure ≠ none
        rw [hfailure]
        exact Option.some_ne_none e
  | delete name =>
    refine .inl ?_
    show (x.delete storage name).index.tables = x.tables
    rw [x.index_delete]

theorem Keeps.run {a : Analyzer} {s : Session} (h : Keeps a s) {calls : List Call}
    (hcalls : s.AllKeepTerms calls) : Keeps a (s.run calls) := by
  induction calls generalizing s with
  | nil => exact h
  | cons c rest ih => exact ih (h.after hcalls.1) hcalls.2

/-- The tables that a session holds are those of a collection, if it holds any, or they are torn. -/
theorem Keeps.held_run {a : Analyzer} {s : Session} (h : Keeps a s) (hs : s.held = .none)
    {calls : List Call} (hcalls : s.AllKeepTerms calls) :
    (s.run calls).held = .none ∨
      (∃ docs t, (s.run calls).held = .all t ∧ Tables.Represents a docs t) ∨ s.Torn calls := by
  induction calls using List.reverseRecOn with
  | nil => exact .inl hs
  | append_singleton calls c ih =>
    obtain ⟨hearlier, -⟩ := hcalls.of_append
    obtain hsame | hwhole | htears := (h.run hearlier).held_after c
    · obtain hnone | hwhole | htorn := ih hearlier
      · exact .inl (by rw [run_append, hsame, hnone])
      · exact .inr (.inl (by rwa [run_append, hsame]))
      · exact .inr (.inr (htorn.append hsame))
    · exact .inr (.inl (by rwa [run_append]))
    · exact .inr (.inr ⟨calls, c, [], rfl, htears, by rw [run_append]⟩)

/-- After any calls on a new index, where nothing was stored, the tables that the index holds fit
together, unless they were left by a load that failed halfway. Of what is created in text, no term
may have a pair: it would be read as another term, in whose place or beside which it stood. -/
theorem coherent_of_not_torn {a : Analyzer} {home : Path} {format : TableFormat}
    {storage : IndexStorage}
    (hstorage : ∀ (place : Path) (content : Content),
      storage.node? (place.inside Tables.termsFile) ≠ some (.file content))
    {calls : List Call}
    (hterms : AllKeepTerms ⟨.memory (.new a home format), storage⟩ calls)
    (h : ¬Torn ⟨.memory (.new a home format), storage⟩ calls)
    (hloaded : (run ⟨.memory (.new a home format), storage⟩ calls).held.terms ≠ none) :
    ∃ t, (run ⟨.memory (.new a home format), storage⟩ calls).held = .all t ∧ t.Coherent := by
  have hkeeps : Keeps a ⟨.memory (.new a home format), storage⟩ :=
    ⟨⟨_, rfl, rfl⟩, Tables.storedWhole_of_none hstorage⟩
  obtain hnone | ⟨docs, t, ht, hrep⟩ | htorn := hkeeps.held_run rfl hterms
  · rw [hnone] at hloaded
    exact absurd rfl hloaded
  · exact ⟨t, ht, hrep.coherent⟩
  · exact absurd htorn h

/-- The theorem at a creation and a load of what it has stored. -/
theorem coherent_of_not_torn_loaded :
    let s : Session := ⟨.memory (.new ⟨true, defaultPunctuation, .suffix, []⟩ ⟨false, [['m']]⟩
      (.value (.str ['p']))), .empty⟩
    let calls : List Call := [.create [] (.str ['i']) [.arr [.int 1, .str ['c', 'a', 't']]],
      .load ⟨false, [['m'], ['i']]⟩]
    ∃ t, (s.run calls).held = .all t ∧ t.Coherent := by
  intro s calls
  have hloaded : ((s.run [calls[0]]).outcome calls[1]).failure = none := by decide +kernel
  have hterms : (s.run calls).held.terms.isSome = true := by decide +kernel
  have htorn : ¬s.Torn calls := by
    rintro ⟨before, c, rest, heq, htears, -⟩
    rcases before with _ | ⟨_, _ | ⟨_, before⟩⟩
    · obtain ⟨rfl, -⟩ := List.cons.inj heq
      exact htears
    · obtain ⟨hfirst, heq⟩ := List.cons.inj heq
      obtain ⟨rfl, -⟩ := List.cons.inj heq
      rw [← hfirst] at htears
      exact htears.1 hloaded
    · have hlength := congrArg List.length heq
      simp [calls] at hlength
  have hkept : s.AllKeepTerms calls := ⟨.inl rfl, trivial, trivial⟩
  exact coherent_of_not_torn (fun place => Storage.node?_empty_ne_file _) hkept htorn
    (Option.isSome_iff_ne_none.mp hterms)

theorem not_coherent_of_counts {held : HeldTables} {m : Int} {n : Nat}
    (hterms : held.terms.map (·.documents) = some m)
    (hcontents : held.contents.map (·.size) = some n) (hne : m ≠ n) :
    held.terms ≠ none ∧ ¬∃ t, held = .all t ∧ t.Coherent := by
  constructor
  · intro hnone
    rw [hnone] at hterms
    contradiction
  · rintro ⟨t, rfl, hcoherent⟩
    have hdocuments : t.terms.documents = m := Option.some.inj hterms
    have hsize : t.contents.size = n := Option.some.inj hcontents
    exact hne (by rw [← hdocuments, hcoherent.terms_documents, hsize])

/-- Tables that were left by a load that failed halfway need not fit together: a folder lies where
the contents of the index that the last call loads should have been stored. -/
theorem not_coherent_of_torn :
    let pair (d : Int) (text : Text) : Json := .arr [.int d, .str text]
    let s := run ⟨.memory (.new ⟨true, defaultPunctuation, .suffix, []⟩ ⟨false, [['m']]⟩
        (.value (.str "json".toText))), .empty⟩
      [.create [] (.str "x/doc_store.dat".toText) [pair 1 "cat".toText],
        .create [] (.str "x/new/..".toText) [pair 1 "lazy dog".toText],
        .create [] (.str "y".toText) [pair 2 "cat sleeps".toText, pair 3 "dog barks".toText],
        .load ⟨false, [['m'], ['x']]⟩]
    s.held.terms ≠ none ∧ ¬∃ t, s.held = .all t ∧ t.Coherent := by
  intro pair s
  have hterms : s.held.terms.map (·.documents) = some 1 := by decide +kernel
  have hcontents : s.held.contents.map (·.size) = some 2 := by decide +kernel
  exact not_coherent_of_counts hterms hcontents (by decide)

end Session

end Concordance
