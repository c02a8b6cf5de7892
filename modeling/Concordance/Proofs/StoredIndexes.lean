import Concordance.Proofs.Nesting
import Concordance.Proofs.Safety
import Concordance.Proofs.ScratchIndex

/-!
# What is stored stays

Commands that only read leave the stored indexes as they are. So does a demonstration where
no index is stored under the name that it uses and there is room for one: its queries do not
fail, and its own index is deleted again. An index that is stored under that name is lost.
-/
namespace Concordance

open Storage (OnlyMakes Grounded)

namespace Work

section Queries

variable {e : Engine} {x : Index} {query : Text} {a : Analyzer} {docs : Collection}

/-- Whatever is found in a collection can be looked up there. -/
theorem lookUp_eq_ok (hx : x.view = Collection.view a docs) (hsize : docs.size < Nat.pow 2 1023)
    (hmatching : ∃ found, e.matching (Collection.view a docs) query = .ok found) :
    lookUp e x query = .ok () := by
  obtain ⟨found, hfound⟩ := hmatching
  obtain ⟨hits, hhits⟩ := (Collection.counts_sound hsize).score found.ids
    ((rankingWords (e.tokens query)).map e.stemmer.stem)
  rw [lookUp, hx, Engine.search, hfound, ok_bind, hhits, ok_bind]
  induction hits.map (·.doc) with
  | nil => rfl
  | cons d rest ih => exact ih

theorem forM_eq_ok {α : Type} {f : α → Except Failure PUnit} {l : List α}
    (h : ∀ a ∈ l, f a = .ok ()) : l.forM f = .ok () := by
  induction l with
  | nil => rfl
  | cons a rest ih =>
    obtain ⟨ha, hrest⟩ := List.forall_mem_cons.mp h
    show (f a >>= fun _ => rest.forM f) = .ok ()
    rw [ha, ok_bind, ih hrest]

/-- What the index of a demonstration is made of. -/
def demoEntries : List Json := sampleDocuments.map entryOf

def demoDocuments : Collection := Ingestion.accepted .empty demoEntries

/-- A query with no more tokens than groups may nest is matched wherever postings can be read. -/
theorem exists_matching_of_length {v : IndexView} {depth : Int} (hdepth : e.maxDepth = .int depth)
    (hv : ∀ t, ∃ s, v.postings t = .ok s) (hlength : ((e.tokens query).length : Int) ≤ depth) :
    ∃ docs, e.matching v query = .ok docs := by
  refine Engine.exists_matching hdepth hv fun hdeep => ?_
  choose words hwords using hv
  rw [Engine.matching] at hdeep
  split at hdeep
  · obtain ⟨sets, -, hsets, -⟩ := e.mapM_alike (v := v) (u := v) (R := fun _ _ => True)
      (fun t => ⟨words t, words t, hwords t, hwords t, trivial⟩)
      (Engine.conjunctionWords (e.tokens query))
    rw [Engine.conjunction, hsets] at hdeep
    cases hdeep
  · have hlimit : e.depthLimit (e.tokens query).length = .ok (.whole depth) := by
      rw [Engine.depthLimit, hdepth]
      rfl
    simp only [Engine.boolean, hlimit, ok_bind, hwords] at hdeep
    exact evaluate_ne_tooDeep_of_length (fun w => words (e.stemmer.stem w)) (.whole depth) hlength
      hdeep

/-- The queries of a demonstration can be answered of its documents. -/
theorem exists_matching_of_demo [Language] (c : Configuration) (hquery : query ∈ demoQueries) :
    ∃ found, (c.settings.engine Backend.analyzer).matching
      (Collection.view Backend.analyzer demoDocuments) query = .ok found := by
  have hlengths : ∀ query ∈ demoQueries,
      (queryTokens defaultPunctuation true query).length ≤ 100 := by
    decide +kernel
  have hdepth : (c.settings.engine Backend.analyzer).maxDepth = .int Settings.defaultDepth := rfl
  exact exists_matching_of_length hdepth (fun t => ⟨_, rfl⟩)
    (Int.ofNat_le.mpr (hlengths query hquery))

/-- The queries of a demonstration do not fail at an index of its documents. -/
theorem does_demoQueries [Language] (hx : x.view = Collection.view Backend.analyzer demoDocuments)
    (c : Configuration) (b : CliState) :
    Does (demoQueries.forM (showQuery (c.settings.engine Backend.analyzer) x)) b (.ok ()) b := by
  have hlookUp : ∀ query ∈ demoQueries,
      lookUp (c.settings.engine Backend.analyzer) x query = .ok () := fun query hquery =>
    lookUp_eq_ok hx (by decide +kernel) (exists_matching_of_demo c hquery)
  have hshown := reads_forM (reads_showQuery (c.settings.engine Backend.analyzer) x) demoQueries b
  rwa [forM_eq_ok hlookUp] at hshown

end Queries

section Listing

variable {around : Surroundings} {p : Backend} {s : IndexStorage} {name : Text}

/-- The names in a list. -/
def namesIn : Json → List Text
  | .arr items => items.filterMap fun item => item.text.toOption
  | _ => []

theorem namesIn_names (names : List Text) : namesIn (.arr (names.map .str)) = names := by
  rw [namesIn, List.filterMap_map]
  exact List.filterMap_some

/-- A new command lists a name among those of the indexes of a kind. -/
def Lists [Language] (around : Surroundings) (p : Backend) (s : IndexStorage) (name : Text) :
    Prop :=
  ∃ names, listed around p s = .ok names ∧ name ∈ namesIn names

/-- A folder in the home of indexes is listed. -/
theorem lists_of_isFolder [Language] (hs : s.Grounded) (hreaches : s.Reaches
    (.ofText around.folder))
    (htakes : Path.Takes (.ofText around.folder) p.homeName) (hname : Storage.IsFileName name)
    (hfolder : s.isFolder ((p.home (.ofText around.folder)).destination.inside name) = true) :
    Lists around p s name := by
  have hhome : s.isFolder (p.home (.ofText around.folder)).destination = true :=
    hs.isFolder_of_node? (by rw [Storage.isFolder_iff.mp hfolder]; simp)
  rw [Backend.destination_home] at hhome
  have hreached : s.Reaches (p.home (.ofText around.folder)) := hreaches.child htakes hhome
  obtain ⟨names, -, hnames, heq⟩ := Storage.exists_folders hreached
  have hstored : (p.newIndex (.ofText around.folder)).stored s =
      .ok (sortBy (fun a b => !(b < a : Bool)) names) := by
    rw [← p.home_newIndex] at hreached heq
    rw [Index.stored_of_reaches hreached, heq]
  refine ⟨.arr ((sortBy (fun a b => !(b < a : Bool)) names).map .str), ?_, ?_⟩
  · rw [listed_eq hreaches, Backend.prepare_of_reaches hreached, ok_bind, hstored, ok_bind]
  · rw [namesIn_names, (perm_sortBy names).mem_iff, hnames]
    exact ⟨Path.isOutward_inside hname.1.2 _, hfolder⟩

end Listing

section Demonstrating

theorem isFileName_demoName : Storage.IsFileName demoName := ⟨⟨rfl, by decide⟩, rfl, by decide⟩

variable {around : Surroundings} {p : Backend} {folder : Path} {x : Index} {s : IndexStorage}

/-- A demonstration whose index is created ends with the deletion of the index. -/
theorem does_demonstrating [Language] (hx : p.Makes folder x)
    (hcreated : (x.create s around.now (.str demoName) demoEntries).failure = none)
    (c : Configuration) :
    let created := x.create s around.now (.str demoName) demoEntries
    let deleted := created.index.delete created.storage demoName
    Does (demonstrating around c x s) ⟨s, some x⟩ (deleted.failure.elim (.ok .null) .error)
      ⟨deleted.storage, some deleted.index⟩ := by
  intro created deleted
  have hsettled := does_settle (b := ⟨s, some x⟩) created
  rw [hcreated] at hsettled
  have hview := Index.view_create hcreated
  rw [hx.analyzer] at hview
  have hqueries := does_demoQueries hview c ⟨created.storage, some created.index⟩
  rw [← (hx.create s around.now (.str demoName) demoEntries).analyzer] at hqueries
  refine hsettled.bind (hqueries.bind (Does.get (f := clearingAway created.index) ?_))
  have hdeleted := does_settle (b := ⟨created.storage, some created.index⟩) deleted
  cases hfailure : deleted.failure with
  | none =>
    rw [hfailure] at hdeleted
    exact hdeleted.bind (reads_pure _ _)
  | some e =>
    rw [hfailure] at hdeleted
    exact hdeleted.bind_error

/-- A demonstration with a cached index ends with the deletion of what it creates. -/
theorem does_demo [Language] {b : CliState} (hfolder : (b.storage.makeFolders
    (.ofText around.folder)).2 = none)
    (hindex : b.index = some x) (hx : p.Makes folder x) :
    let made := (b.storage.makeFolders (.ofText around.folder)).1
    let created := x.create made around.now (.str demoName) demoEntries
    let deleted := created.index.delete created.storage demoName
    created.failure = none → Does (demo around) b (deleted.failure.elim (.ok .null) .error)
      ⟨deleted.storage, some deleted.index⟩ := by
  intro made created deleted hcreated
  have hchosen : Configuration.choose around .null .null =
      .ok ⟨[.memory], .ok (.ofText around.dataset), .ofText around.folder⟩ := rfl
  have hconfigured := does_configure (b := b) hchosen
  simp only [hfolder] at hconfigured
  rw [demo_eq]
  refine hconfigured.bind
    (Does.bind (does_theIndex_of_some (hindex : CliState.index ⟨_, _⟩ = _)) ?_)
  rw [hindex]
  exact Does.get (f := demonstrating around _ x) (does_demonstrating hx hcreated _)

/-- Where there is room for the index of a demonstration and none is stored under its name, the
demonstration leaves nothing but the folder around its index. -/
theorem ends_demonstrating [Language] (hx : p.Makes folder x) (hs : s.Grounded) (hfolder :
    s.Reaches folder)
    (hnew : s.isFolder ((p.home folder).destination.inside demoName) = false)
    (hfits : ∀ file ∈ p.fileNames, ((p.home folder).child demoName).fits file = true)
    (around : Surroundings) (c : Configuration) :
    Ends (fun b => OnlyMakes s b.storage (IsHome folder))
      (fun _ b => OnlyMakes s b.storage (IsHome folder)) (demonstrating around c x s)
      ⟨s, some x⟩ := by
  have hentries : Ingestion.Legible demoEntries := by decide
  obtain ⟨hfailure, hsame⟩ | ⟨hfailure, honly⟩ :=
    hx.create_delete hs hfolder isFileName_demoName hnew hfits hentries around.now
  · have hsettled := does_settle (b := ⟨s, some x⟩)
      (x.create s around.now (.str demoName) demoEntries)
    obtain ⟨e, he⟩ := Option.ne_none_iff_exists'.mp hfailure
    rw [he] at hsettled
    refine .error hsettled.bind_error ?_
    rw [hsame]
    exact .refl s _
  · have hdoes := does_demonstrating hx hfailure c
    simp only at hdoes
    generalize (Index.delete _ _ demoName).failure = failure at hdoes
    cases failure with
    | none => exact .ok hdoes honly
    | some e => exact .error hdoes honly

end Demonstrating

end Work

def Index.backend : Index → Backend
  | memory _ => .memory
  | database _ => .database

theorem Backend.Makes.backend_eq [Language] {p : Backend} {folder : Path} {x : Index} (h :
    p.Makes folder x) :
    x.backend = p := by
  have hkind := h.same.kind
  cases p with
  | memory =>
    cases hkind
    rfl
  | database =>
    cases hkind
    rfl

theorem Backend.folder_inj {p : Backend} {folder folder' : Path} (h :
    p.home folder = p.home folder') :
    folder = folder' := by
  have hname := p.isFileName_homeName.1
  rw [home, home, Path.child_eq_inside hname, Path.child_eq_inside hname] at h
  exact (Path.inside_inj h).1

namespace SearchCli

open Work (Ends listed opened Lists runAt perform)

/-- The backend of the cached index, or of the one that a demonstration makes. -/
def backend (d : SearchCli) : Backend := (d.index.map Index.backend).getD .memory

/-- A demonstration spares all that is stored: a cached index is of the same folder,
no index is stored under the name of the demonstration, and there is room for the paths of its
files. -/
structure Spares [Language] (around : Surroundings) (d : SearchCli) : Prop where
  home : ∀ x, d.index = some x → x.home = d.backend.home (.ofText around.folder)
  new : ¬Lists around d.backend d.storage Work.demoName
  fits : ∀ file ∈ d.backend.fileNames,
    ((d.backend.home (.ofText around.folder)).child Work.demoName).fits file = true

variable {around : Surroundings} {d : SearchCli} {c : Configuration} {b : CliState} {x : Index}

theorem backend_of_index (hindex : d.index = some x) : d.backend = x.backend := by
  rw [backend, hindex]
  rfl

namespace Spares

/-- The index of a demonstration that spares what is stored is of the kind and in the folder that
are said, and only the folder for such indexes is made with it. -/
theorem ends_theIndex [Language] (h : d.Spares around) (hkept : Kept d.state)
    (hchosen : Configuration.choose around .null .null = .ok c) (hgrounded : b.storage.Grounded)
    (hreaches : b.storage.Reaches (.ofText around.folder)) (hindex : b.index = d.index) :
    Ends (· = b) (fun x b' => b'.index = some x ∧ d.backend.Makes (.ofText around.folder) x ∧
      b'.storage.Grounded ∧ OnlyMakes b.storage b'.storage (IsHome (.ofText around.folder)))
      (Work.theIndex c) b := by
  refine (Work.ends_theIndex c b).weaken (fun _ h => h) ?_
  rintro x b' ⟨hx, rfl | ⟨hnone, p, hp, rfl, hprepared⟩⟩
  · have hcached : d.index = some x := hindex.symm.trans hx
    obtain ⟨p, folder, hmakes⟩ := hkept.index x hcached
    have hbackend : d.backend = p := (backend_of_index hcached).trans hmakes.backend_eq
    have hhome := h.home x hcached
    rw [hmakes.home, hbackend] at hhome
    rw [← Backend.folder_inj hhome, hbackend]
    exact ⟨hx, hmakes, hgrounded, .refl _ _⟩
  · have hmemory : d.backend = p := by
      have hdefault : c.backend? = some Backend.memory.name := by
        cases hchosen
        rfl
      have hsame : Backend.memory.name = p.name := Option.some.inj (hdefault.symm.trans hp)
      rw [backend, ← hindex, hnone]
      cases p with
      | memory => rfl
      | database => exact absurd hsame (by decide)
    rw [Configuration.folder_of_choose hchosen] at hx hprepared ⊢
    exact ⟨hx, hmemory ▸ p.makes_newIndex _, Kept.grounded_prepare hgrounded hprepared,
      Backend.onlyMakes_prepare hreaches hprepared⟩

/-- No folder is there under the name of the demonstration. -/
theorem isFolder_eq_false [Language] (h : d.Spares around) (hd : d.storage.Grounded) {s :
    IndexStorage}
    (htraced : Traced (.ofText around.folder) d.storage s) (hs : s.Grounded)
    (hreaches : s.Reaches (.ofText around.folder)) :
    s.isFolder ((d.backend.home (.ofText around.folder)).destination.inside Work.demoName) =
      false := by
  by_contra hfolder
  have htakes := Backend.takes_homeName (Backend.takes_of_fits Work.isFileName_demoName h.fits)
  obtain ⟨names, hnames, hmem⟩ := Work.lists_of_isFolder hs hreaches htakes
    Work.isFileName_demoName (Bool.not_eq_false _ ▸ hfolder)
  rw [htraced.listed hd] at hnames
  exact h.new ⟨names, hnames, hmem⟩

/-- A demonstration that spares what is stored leaves what a command may leave that only reads. -/
theorem traced [Language] (h : d.Spares around) (hkept : Kept d.state) :
    Traced (.ofText around.folder) d.storage (runAt (perform around .demo) d).2.storage := by
  have hgrounded : d.storage.Grounded := hkept.grounded
  show Traced _ _ (runAt (Work.demo around) d).2.storage
  rw [Work.demo_eq]
  refine Ends.left (b := d.state)
    (E := fun b => Traced (.ofText around.folder) d.storage b.storage)
    ((Work.ends_configure .null .null (.same rfl) (.made rfl)).bind ?_) (fun _ _ h => h) rfl
  rintro c b ⟨hchosen, hmade, hindex⟩
  have hmade : d.storage.makeFolders (.ofText around.folder) = (b.storage, none) := hmade
  have hreaches := hgrounded.reaches_of_made hmade
  have hstart := hgrounded.makeFolders (.ofText around.folder)
  rw [hmade] at hstart
  refine ((h.ends_theIndex hkept hchosen hstart hreaches hindex).weaken
    (by rintro _ rfl; exact .homes hmade (.refl _ _)) (fun _ _ h => h)).bind ?_
  rintro x b' ⟨hx, hmakes, hgrounded', hhome⟩
  have hfolder := hhome.reaches hreaches
  have hnew := h.isFolder_eq_false hgrounded (.homes hmade hhome) hgrounded' hfolder
  refine Ends.get (f := Work.demonstrating around c x) ?_
  have hends := Work.ends_demonstrating hmakes hgrounded' hfolder hnew h.fits around c
  rw [← hx] at hends
  have hleft (b'' : CliState)
      (honly : OnlyMakes b'.storage b''.storage (IsHome (.ofText around.folder))) :
      Traced (.ofText around.folder) d.storage b''.storage :=
    .homes hmade ((hhome.trans honly).weaken fun _ hplace => hplace.elim id id)
  exact hends.weaken hleft fun _ => hleft

end Spares

/-- Only creations and deletions change what is stored. After a command that only reads, and after
a demonstration that spares what is stored, new commands list the same indexes of either kind, and
what could be loaded under a name is loaded and is the same. -/
theorem stored_indexes_stay [Language] {s : IndexStorage} (hs : s.Grounded)
    (hsaved : SavedAs (fun j => j.isWritable = true) s)
    {earlier : List (Surroundings × Command)} {command : Command}
    (hcommand : command.OnlyReads ∨
      command = .demo ∧ ((new s).after earlier).Spares around) :
    let d := (new s).after earlier
    let left := (runAt (perform around command) d).2.storage
    ∀ p : Backend, listed around p left = listed around p d.storage ∧
      ∀ name x, opened around p name d.storage = .ok x → opened around p name left = .ok x := by
  intro d left p
  have hkept : Kept d.state := (Kept.new hs hsaved).after earlier
  have hgrounded : d.storage.Grounded := hkept.grounded
  have htraced : Traced (.ofText around.folder) d.storage left := by
    obtain hreads | ⟨rfl, hspares⟩ := hcommand
    · exact Traced.of_onlyReads hgrounded around hreads
    · exact hspares.traced hkept
  exact ⟨htraced.listed hgrounded p, fun name x hx => htraced.opened hgrounded hx⟩

/-- The theorem at a demonstration where another index is stored. -/
theorem stored_index_stays_through_demo :
    let _ : Language := ⟨lower, []⟩
    let around : Surroundings := ⟨['m'], ['d'], "2024-02-29T12:30:00.000001".toText, ['s']⟩
    let d := (new .empty).after [(around, .createIndex .null (.str ['i']) (.bool true) .null)]
    let left := (runAt (perform around .demo) d).2.storage
    (listed around .memory left).map Work.namesIn = .ok [['i']] ∧
      (opened around .memory (.str ['i']) left).map (·.view.content 2) =
        .ok (.ok (some "A cat sleeps on the mat".toText)) := by
  intro language around d left
  obtain ⟨hindex, hbackend, hlisted, hopened⟩ :
      d.index.map (·.home) = some (Backend.memory.home (.ofText around.folder)) ∧
        d.backend = .memory ∧ (listed around .memory d.storage).map Work.namesIn = .ok [['i']] ∧
        (opened around .memory (.str ['i']) d.storage).map (·.view.content 2) =
          .ok (.ok (some "A cat sleeps on the mat".toText)) := by
    decide +kernel
  have hspares : d.Spares around := {
    home := fun x hx => by
      rw [hbackend]
      simpa [hx] using hindex
    new := fun ⟨names, hnames, hmem⟩ => by
      rw [hbackend] at hnames
      rw [hnames] at hlisted
      rw [Except.ok.inj hlisted] at hmem
      exact absurd hmem (by decide)
    fits := by
      rw [hbackend]
      decide +kernel }
  have hcommand : Command.demo.OnlyReads ∨ Command.demo = .demo ∧ d.Spares around :=
    .inr ⟨rfl, hspares⟩
  obtain ⟨hsame, hloads⟩ := stored_indexes_stay Storage.grounded_empty (.empty _) hcommand .memory
  refine ⟨?_, ?_⟩
  · rw [hsame, hlisted]
  · cases hresult : opened around .memory (.str ['i']) d.storage with
    | ok x =>
      rw [hresult] at hopened
      rw [hloads (.str ['i']) x hresult, hopened]
    | error e =>
      rw [hresult] at hopened
      cases hopened

/-- What is stored under the name of the demonstration is lost by it. -/
theorem demo_loses_stored_index :
    let _ : Language := ⟨lower, []⟩
    let around : Surroundings := ⟨['m'], ['d'], "2024-02-29T12:30:00.000001".toText, ['s']⟩
    let d := (new .empty).after
      [(around, .createIndex .null (.str Work.demoName) (.bool true) .null)]
    let left := (runAt (perform around .demo) d).2.storage
    (listed around .memory d.storage).map Work.namesIn = .ok [Work.demoName] ∧
      (listed around .memory left).map Work.namesIn = .ok [] := by
  intro language around d left
  have hkept : Kept d.state := (Kept.new Storage.grounded_empty (.empty _)).after _
  -- What the demonstration creates and deletes, and what is listed then.
  let made := (d.storage.makeFolders (.ofText around.folder)).1
  let created (x : Index) := x.create made around.now (.str Work.demoName) Work.demoEntries
  let deleted (x : Index) := (created x).index.delete (created x).storage Work.demoName
  obtain ⟨hlisted, hfolder, hcreated, hafter⟩ :
      (listed around .memory d.storage).map Work.namesIn = .ok [Work.demoName] ∧
        (d.storage.makeFolders (.ofText around.folder)).2 = none ∧
        d.index.map (fun x => (created x).failure) = some none ∧
        d.index.map (fun x => (listed around .memory (deleted x).storage).map Work.namesIn) =
          some (.ok []) := by
    decide +kernel
  clear_value d
  refine ⟨hlisted, ?_⟩
  cases hindex : d.index with
  | none =>
    rw [hindex] at hcreated
    cases hcreated
  | some x =>
    rw [hindex] at hcreated hafter
    obtain ⟨p, folder, hx⟩ := hkept.index x hindex
    have hdoes := Work.does_demo (b := d.state) hfolder hindex hx (Option.some.inj hcreated)
    have hleft : left = (deleted x).storage := congrArg CliState.storage (hdoes d rfl).2
    rw [hleft]
    exact Option.some.inj hafter

end SearchCli

end Concordance
