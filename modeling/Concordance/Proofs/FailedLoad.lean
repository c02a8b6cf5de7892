import Concordance.Proofs.Shelf

/-!
# A load that fails changes nothing

Creations may be stopped by an entry. An index in memory is saved after all
its entries, so nothing is stored under its name then, and every load that fails does so
before anything is read of an index. A database is stored from the start. One without a
catalogue is told from others only after it has been opened in place of another one.
-/
namespace Concordance

namespace Index

/-- Why the ingestion of entries into an index ends early, if it does. -/
def interruption (x : Index) (entries : List Json) : Option Failure :=
  match x with
  | memory m => (Ingestion.ingest (MemoryIndex.addDocument m.analyzer) .empty entries).stopped
  | database d => (Ingestion.ingest (DatabaseIndex.addDocument d.analyzer) .empty entries).stopped

/-- What calls tell of the names in the home of an index: whether what is stored under them was
created to its end. -/
def tell (x : Index) (told : Table Text Bool) : Call → Table Text Bool
  | .create _ (.str name) entries =>
    if x.interruption entries = none then told.set name true
    else match x with
      | .memory _ => told.erase name
      | .database _ => told.set name false
  | .create _ _ _ => told
  | .load _ => told
  | .delete name => told.erase name

def told (x : Index) (calls : List Call) : Table Text Bool := calls.foldl x.tell .empty

theorem tell_memory (m : MemoryIndex) {told : Table Text Bool}
    (h : ∀ name, told.get? name ≠ some false) (c : Call) (name : Text) :
    ((memory m).tell told c).get? name ≠ some false := by
  have herase (deleted : Text) : (told.erase deleted).get? name ≠ some false := by
    rw [Table.get?_erase]
    split
    · simp
    · exact h name
  unfold tell
  split
  · next created entries =>
    split
    · rw [Table.get?_set]
      split
      · simp
      · exact h name
    · exact herase created
  · exact h name
  · exact h name
  · exact herase _

/-- An index in memory is never stored under a name before its creation has come to its end. -/
theorem told_memory (m : MemoryIndex) (calls : List Call) (name : Text) :
    ((memory m).told calls).get? name ≠ some false := by
  have hrun {told : Table Text Bool} (h : ∀ name, told.get? name ≠ some false) :
      ∀ name, (calls.foldl (memory m).tell told).get? name ≠ some false := by
    induction calls generalizing told with
    | nil => exact h
    | cons c rest ih => exact ih (tell_memory m h c)
  exact hrun (fun _ => by simp) name

/-- An index lies in a folder that can be loaded, if it has been created to its end. -/
def Whole (x : Index) (name : Text) (whole : Bool) (s : IndexStorage) : Prop :=
  whole = true → ∃ created : Index, x.SameIndex created ∧ created.StoredAt s (x.home.child name)

theorem whole_ofFolder (x : Index) : Session.OfFolder x.home x.Whole := by
  intro name whole s s' hkeeps h hwhole
  obtain ⟨created, hsame, hat⟩ := h hwhole
  exact ⟨created, hsame, hat.keeps hkeeps⟩

section Creation

variable {s cleared : IndexStorage} {now name : Text} {entries : List Json}

/-- An index in memory stores nothing when its creation is stopped by an entry. -/
theorem storage_create_of_stopped {m : MemoryIndex}
    (hentries : (memory m).interruption entries ≠ none)
    (hcleared : s.Clears (m.home.child name) cleared) :
    ((Index.memory m).create s now (.str name) entries).storage = cleared := by
  obtain ⟨e, he⟩ := Option.ne_none_iff_exists'.mp hentries
  have hstopped : (Ingestion.ingest (MemoryIndex.addDocument m.analyzer) .empty entries).stopped =
      some e := he
  show (m.create s now (.str name) entries).storage = cleared
  simp only [MemoryIndex.create, Json.text, MemoryIndex.replace]
  obtain ⟨hcontains, rfl⟩ | ⟨hcontains, hremoved⟩ := hcleared
  · simp only [hcontains, MemoryIndex.build, hstopped]
  · simp only [hcontains, hremoved, Outcome.report, MemoryIndex.build, hstopped]

/-- No creation that returns has been stopped by an entry. -/
theorem interruption_of_create {x : Index}
    (h : (x.create s now (.str name) entries).failure = none) : x.interruption entries = none := by
  cases x with
  | memory m => exact (MemoryIndex.ingested_of_create h).1
  | database d => exact DatabaseIndex.stopped_of_create h

/-- Entries stop the creation of an index in the same way in all its states. -/
theorem SameIndex.interruption {x y : Index} (h : x.SameIndex y) :
    x.interruption = y.interruption := by
  have hanalyzer : x.analyzer = y.analyzer := congrArg Prod.fst h.settings
  cases h.kind with
  | memory x y =>
    have : x.analyzer = y.analyzer := hanalyzer
    funext entries
    rw [Index.interruption, Index.interruption, this]
  | database x y =>
    have : x.analyzer = y.analyzer := hanalyzer
    funext entries
    rw [Index.interruption, Index.interruption, this]

end Creation

end Index

namespace Session

/-- A creation is stopped by an entry, one that is no pair or has an id that cannot be shown, and
not before: an index in a database could be created under its name. -/
def Interrupted (s : Session) (name : Text) (entries : List Json) : Prop :=
  s.index.interruption entries ≠ none ∧
    ∀ d, s.index = .database d → (d.create s.storage (.str name) []).failure = none

/-- A call that names something in the home of the index, and returns if it is a creation that is
not interrupted. -/
def Named (s : Session) : Call → Prop
  | .create now name entries =>
    ∃ t, name = .str t ∧ s.index.home.Takes t ∧
      (s.Interrupted t entries ∨ Moment.isMoment now = true ∧
        (s.outcome (.create now name entries)).failure = none)
  | .load _ => True
  | .delete name => s.index.home.Takes name

/-- Such calls one after the other. -/
def AllNamed (s : Session) : List Call → Prop
  | [] => True
  | c :: rest => s.Named c ∧ (s.after c).AllNamed rest

variable {x : Index} {s : Session} {told : Table Text Bool}

/-- A creation that is stopped leaves nothing under its name, or a database that has not been
created to its end. -/
theorem stocks_interrupted (h : Stocks x x.Whole s told) (hdirect : x.home.Direct) {now name : Text}
    {entries : List Json} (hname : x.home.Takes name) (hstops : s.Interrupted name entries) :
    Stocks x x.Whole (s.after (.create now (.str name) entries))
      (x.tell told (.create now (.str name) entries)) := by
  have hsame := h.same.trans (s.index.sameIndex_create s.storage now (.str name) entries)
  obtain ⟨hentries, hopens⟩ := hstops
  rw [← h.same.interruption] at hentries
  obtain ⟨index, storage⟩ := s
  have hhome := h.same.home
  have hkind := h.same.kind
  have hinterruption := h.same.interruption
  simp only at hkind hhome hinterruption
  simp only [Index.tell, if_neg hentries]
  cases hkind with
  | memory x m =>
    -- The old folder is removed before the first entry, and nothing is saved before the last one.
    have hm : (Index.memory x).home = m.home := hhome
    obtain ⟨cleared, hcleared, hleft⟩ := h.clears (Index.whole_ofFolder _) hdirect hname
    rw [hm] at hcleared
    rw [hinterruption] at hentries
    exact hleft _ hsame (Index.storage_create_of_stopped hentries hcleared)
  | database x d =>
    -- The database was opened before the first entry, so a folder is there under the name.
    have hd : (Index.database x).home = d.home := hhome
    have hroot := h.root
    rw [hd] at hdirect hname hroot
    have hrenewed :=
      DatabaseIndex.renewed_create_of_others hdirect hname hroot (hopens d rfl) entries
    rw [← hd] at hrenewed hname
    exact h.set (Index.whole_ofFolder _) hsame hname hrenewed nofun

theorem stocks_create (h : Stocks x x.Whole s told) (hdirect : x.home.Direct) {now name : Text}
    {entries : List Json} (hcall : s.Named (.create now (.str name) entries)) :
    Stocks x x.Whole (s.after (.create now (.str name) entries))
      (x.tell told (.create now (.str name) entries)) := by
  obtain ⟨t, ht, hname, hcase⟩ := hcall
  cases ht
  have hhome := h.same.home
  obtain hstops | ⟨hnow, hcreated⟩ := hcase
  · rw [← hhome] at hname
    exact stocks_interrupted h hdirect hname hstops
  · have hsame := h.same.trans (s.index.sameIndex_create s.storage now (.str name) entries)
    have hroot := h.root
    rw [hhome] at hdirect hroot
    have hrenewed := Index.renewed_create hdirect hname hroot hcreated
    have hat := Index.storedAt_create hcreated hnow
    rw [← hhome] at hrenewed hat hname
    have hwhole : x.interruption entries = none :=
      h.same.interruption ▸ Index.interruption_of_create hcreated
    simp only [Index.tell, if_pos hwhole]
    exact h.set x.whole_ofFolder hsame hname hrenewed fun _ => ⟨_, hsame, hat⟩

theorem stocks_after (h : Stocks x x.Whole s told) (hdirect : x.home.Direct) {c : Call}
    (hc : s.Named c) : Stocks x x.Whole (s.after c) (x.tell told c) := by
  cases c with
  | create now name entries =>
    obtain ⟨t, rfl, -⟩ := id hc
    exact stocks_create h hdirect hc
  | load path => exact h.load path
  | delete name =>
    have hname : s.index.home.Takes name := hc
    rw [← h.same.home] at hname
    obtain ⟨cleared, hcleared, hleft⟩ := h.clears x.whole_ofFolder hdirect hname
    exact hleft _ (h.same.trans (s.index.sameIndex_delete s.storage name))
      (Index.storage_delete_of_clears (h.same.home ▸ hcleared))

theorem stocks_run (h : Stocks x x.Whole s told) (hdirect : x.home.Direct) {calls : List Call}
    (hcalls : s.AllNamed calls) : Stocks x x.Whole (s.run calls) (calls.foldl x.tell told) := by
  induction calls generalizing s told with
  | nil => exact h
  | cons c rest ih => exact ih (stocks_after h hdirect hcalls.1) hcalls.2

/-- Nothing of an index is found at a path. -/
def Lacks (s : Session) (path : Path) : Prop :=
  match s.index with
  | .memory _ => ∃ e, MemoryIndex.metadataIn s.storage path = .error e
  | .database _ => s.storage.contains path ≠ .ok true

theorem Lacks.after {path : Path} (h : s.Lacks path) : s.after (.load path) = s := by
  obtain ⟨index, storage⟩ := s
  cases index with
  | memory m =>
    obtain ⟨e, he⟩ : ∃ e, MemoryIndex.metadataIn storage path = .error e := h
    show Session.mk (.memory (m.load storage path).index) (m.load storage path).storage = _
    rw [MemoryIndex.load]
    cases storage.contains path with
    | error e => rfl
    | ok there =>
      cases there with
      | false => rfl
      | true => simp only [he]
  | database d =>
    have hcontains : storage.contains path ≠ .ok true := h
    show Session.mk (.database (d.load storage path).index) (d.load storage path).storage = _
    rw [DatabaseIndex.load]
    cases hthere : storage.contains path with
    | error e => rfl
    | ok there =>
      cases there with
      | false => rfl
      | true => exact absurd hthere hcontains

/-- Where an index was created to its end, its load succeeds; where none is stored, its load fails
and changes nothing. -/
theorem Stocks.load_cases (h : Stocks x x.Whole s told) {name : Text} (hname : x.home.Takes name)
    (hwhole : told.get? name ≠ some false) :
    (s.outcome (.load (x.home.child name))).failure = none ∨
      s.after (.load (x.home.child name)) = s := by
  cases hstored : told.get? name with
  | none =>
    have hcontains := h.contains hname
    rw [hstored] at hcontains
    obtain ⟨log, hlog⟩ := Index.load_of_absent (x := s.index) hcontains
    refine .inr ?_
    simp only [Session.after, outcome, hlog]
  | some whole =>
    cases whole with
    | false => exact absurd hstored hwhole
    | true =>
      obtain ⟨created, hsame, hat⟩ := (h.kept name true hstored).2 rfl
      obtain ⟨log, hlog⟩ := hat s.index (hsame.symm.trans h.same).kind
      refine .inl ?_
      simp only [outcome, hlog]

/-- A load that fails changes neither the index nor what is stored, so that whatever is called or
asked for afterwards comes out as without it, if nothing of an index is at its path, or if it names
something in the home of the index, other than a database whose creation was stopped. -/
theorem run_without_load (h : s.Vacant) {calls : List Call} (hcalls : s.AllNamed calls)
    {path : Path} (hpath : (s.run calls).Lacks path ∨ ∃ name, s.index.home.Takes name ∧
      path = s.index.home.child name ∧
        ∀ d, s.index = .database d → (s.index.told calls).get? name ≠ some false)
    (hfails : ((s.run calls).outcome (.load path)).failure ≠ none) (rest : List Call) :
    s.run (calls ++ .load path :: rest) = s.run (calls ++ rest) := by
  have hsame : (s.run calls).after (.load path) = s.run calls := by
    obtain hlacks | ⟨name, hname, rfl, hwhole⟩ := hpath
    · exact hlacks.after
    · have hstocks := stocks_run (h.stocks _) h.direct hcalls
      have hnot : (s.index.told calls).get? name ≠ some false := by
        cases hindex : s.index with
        | memory m => exact Index.told_memory m calls name
        | database d => exact hindex ▸ hwhole d hindex
      obtain hok | hsame := hstocks.load_cases hname hnot
      · exact absurd hok hfails
      · exact hsame
  show (calls ++ .load path :: rest).foldl after s = (calls ++ rest).foldl after s
  rw [List.foldl_append, List.foldl_append, List.foldl_cons]
  exact congrArg (rest.foldl after) hsame

/-- The theorem at an index in a database of which one name is created and another one is not
created to its end. The load of a third name fails. -/
theorem run_without_load_after_interrupted :
    let home : Path := ⟨false, [['r']]⟩
    let s : Session := ⟨.database (.new ⟨true, defaultPunctuation, .suffix, []⟩ home), .empty⟩
    let now := "2024-02-29T12:30:00.000001".toText
    let returns : Call := .create now (.str ['y']) [.arr [.int 2, .str "cat sleeps".toText]]
    let stops : Call := .create now (.str ['x']) [.arr [.int 1, .str "cat".toText], .int 7]
    let calls := [returns, stops]
    ((s.run calls).outcome (.load (home.child ['z']))).failure ≠ none ∧ ∀ rest,
      s.run (calls ++ .load (home.child ['z']) :: rest) = s.run (calls ++ rest) := by
  intro home s now returns stops calls
  have hvacant : s.Vacant := ⟨Path.direct_of_plain (by decide), rfl,
    .inr ⟨⟨_, rfl⟩, by decide +kernel⟩, fun _ houtward => Storage.node?_empty houtward⟩
  have htakes (name : Text) (hname : name = [.char 'x'] ∨ name = [.char 'y'] ∨ name = [.char 'z']) :
      home.Takes name := by
    obtain rfl | rfl | rfl := hname <;>
      exact ⟨⟨⟨rfl, by decide⟩, rfl, by decide⟩, by decide +kernel⟩
  have hreturns : s.Named returns := by
    exact ⟨['y'], rfl, htakes _ (by simp), .inr ⟨by decide +kernel, by decide +kernel⟩⟩
  have hstops : (s.after returns).Named stops := by
    refine ⟨['x'], rfl, ?_, .inl ⟨by decide +kernel, fun d hd => ?_⟩⟩
    · rw [home_after]
      exact htakes _ (by simp)
    · cases hd
      decide +kernel
  have hcalls : s.AllNamed calls := ⟨hreturns, hstops, trivial⟩
  have hfails : ((s.run calls).outcome (.load (home.child ['z']))).failure ≠ none := by
    decide +kernel
  have hwhole : (s.index.told calls).get? ['z'] ≠ some false := by decide +kernel
  exact ⟨hfails, run_without_load hvacant hcalls
    (.inr ⟨['z'], htakes _ (by simp), rfl, fun _ _ => hwhole⟩) hfails⟩

/-- A load of a database whose creation was stopped fails after it has taken the place of the one
that was open: the contents of the latter are no longer found. -/
theorem load_changes_after_interrupted :
    let pair (d : Int) (text : Text) : Json := .arr [.int d, .str text]
    let home : Path := ⟨false, [['r']]⟩
    let s := run ⟨.database (.new ⟨true, defaultPunctuation, .suffix, []⟩ home), .empty⟩
      [.create [] (.str ['x']) [pair 1 "cat".toText, .int 7],
        .create [] (.str ['y']) [pair 2 "cat sleeps".toText, pair 3 "dog barks".toText]]
    (s.outcome (.load (home.child ['x']))).failure ≠ none ∧
      s.index.view.content 3 = .ok (some "dog barks".toText) ∧
      (s.after (.load (home.child ['x']))).index.view.content 3 = .ok none := by
  decide +kernel

end Session

end Concordance
