import Concordance.Proofs.Configured
import Concordance.Proofs.Grounded

/-!
# What commands keep of the state

What is kept by the making of an index and by each operation on it is kept by the commands
that make use of these operations. So the storage of a CLI hangs together after any
commands, and the index there is one of those that commands make.
-/
namespace Concordance

namespace Backend

variable {p : Backend} {folder : Path} {x : Index}

/-- An index is one of a kind that commands make in a folder, whatever it holds by now. -/
structure Makes [Language] (p : Backend) (folder : Path) (x : Index) : Prop where
  same : (p.newIndex folder).SameIndex x
  format : ∀ m, x = .memory m → ∃ j, m.format = .value j ∧ j.isWritable = true

theorem makes_newIndex [Language] (p : Backend) (folder : Path) : p.Makes folder
    (p.newIndex folder) where
  same := .refl _
  format m hm := by
    cases p with
    | memory =>
      cases hm
      exact ⟨savedFormat, rfl, rfl⟩
    | database => cases hm

namespace Makes

variable [Language]

theorem home (h : p.Makes folder x) : x.home = p.home folder := by
  rw [← h.same.home, home_newIndex]

theorem analyzer (h : p.Makes folder x) : x.analyzer = Backend.analyzer :=
  (congrArg Prod.fst h.same.settings).symm.trans (p.analyzer_newIndex folder)

theorem create (h : p.Makes folder x) (s : IndexStorage) (now : Text) (name : Json)
    (entries : List Json) : p.Makes folder (x.create s now name entries).index where
  same := h.same.trans (x.sameIndex_create s now name entries)
  format m hm := by
    cases x with
    | memory x =>
      cases hm
      rw [x.format_create]
      exact h.format x rfl
    | database x => cases hm

theorem load (h : p.Makes folder x) {s : IndexStorage}
    (hs : SavedAs (fun j => j.isWritable = true) s) (path : Path) :
    p.Makes folder (x.load s path).index where
  same := h.same.trans (x.sameIndex_load s path)
  format m hm := by
    cases x with
    | memory x =>
      cases hm
      exact MemoryIndex.format_load (h.format x rfl) hs path
    | database x => cases hm

theorem delete (h : p.Makes folder x) (s : IndexStorage) (name : Text) :
    p.Makes folder (x.delete s name).index where
  same := h.same.trans (x.sameIndex_delete s name)
  format m hm := by
    cases x with
    | memory x =>
      cases hm
      rw [x.index_delete]
      exact h.format x rfl
    | database x => cases hm

end Makes

end Backend

/-- A command that is to change no stored index, and makes none of its own. -/
def Command.OnlyReads : Command → Prop
  | search .. | showDocument .. | listIndices .. | showConfig .. => True
  | createIndex .. | deleteIndex .. | demo => False

namespace Work

variable {α β : Type} {w : Work α} {f : α → Work β} {b : CliState} {E : CliState → Prop}
  {Q : α → CliState → Prop} {R : β → CliState → Prop}

/-- Work comes to a result of which `Q` holds with the state that is left, or it fails and leaves
one of which `E` holds. -/
inductive Ends (E : CliState → Prop) (Q : α → CliState → Prop) (w : Work α) (b : CliState) : Prop
  | ok {a : α} {b' : CliState} (does : Does w b (.ok a) b') (after : Q a b')
  | error {e : Failure} {b' : CliState} (does : Does w b (.error e) b') (after : E b')

namespace Ends

theorem bind (h : Ends E Q w b) (hf : ∀ a b', Q a b' → Ends E R (f a) b') :
    Ends E R (w >>= f) b := by
  cases h with
  | ok does hafter =>
    cases hf _ _ hafter with
    | ok does' hafter' => exact .ok (does.bind does') hafter'
    | error does' hafter' => exact .error (does.bind does') hafter'
  | error does hafter => exact .error does.bind_error hafter

theorem weaken {E' : CliState → Prop} {Q' : α → CliState → Prop} (h : Ends E Q w b)
    (hE : ∀ b', E b' → E' b') (hQ : ∀ a b', Q a b' → Q' a b') : Ends E' Q' w b := by
  cases h with
  | ok does hafter => exact .ok does (hQ _ _ hafter)
  | error does hafter => exact .error does (hE _ hafter)

theorem get {f : IndexStorage → Work β} (h : Ends E R (f b.storage) b) :
    Ends E R (get >>= fun d => f d.storage) b := by
  cases h with
  | ok does hafter => exact .ok does.get hafter
  | error does hafter => exact .error does.get hafter

/-- Whatever the work comes to, a state is left. -/
theorem left (h : Ends E Q w b) (hQ : ∀ a b', Q a b' → E b') {d : SearchCli} (hd : d.state = b) :
    E (runAt w d).2.state := by
  cases h with
  | ok does hafter =>
    rw [(does d hd).2]
    exact hQ _ _ hafter
  | error does hafter =>
    rw [(does d hd).2]
    exact hafter

end Ends

theorem Reads.ends {r : IndexStorage → Except Failure α} (h : Reads w r) (hb : E b) :
    Ends E (fun a b' => r b.storage = .ok a ∧ b' = b) w b := by
  have hw := h b
  cases hr : r b.storage with
  | ok a =>
    rw [hr] at hw
    exact .ok hw ⟨rfl, rfl⟩
  | error e =>
    rw [hr] at hw
    exact .error hw hb

theorem ends_settle {o : Outcome Index} (h : E ⟨o.storage, some o.index⟩) :
    Ends E (fun x b' => o.failure = none ∧ x = o.index ∧ b' = ⟨o.storage, some o.index⟩)
      (settle o) b := by
  have hsettled := does_settle (b := b) o
  cases hfailure : o.failure with
  | none =>
    rw [hfailure] at hsettled
    exact .ok hsettled ⟨rfl, rfl, rfl⟩
  | some e =>
    rw [hfailure] at hsettled
    exact .error hsettled h

/-- Whatever comes of the choice of a configuration, at most the folder of all indexes is made. -/
theorem ends_configure {around : Surroundings} (backend dataset : Json) (hb : E b)
    (hmade : E ⟨(b.storage.makeFolders (.ofText around.folder)).1, b.index⟩) :
    Ends E (fun c b' => Configuration.choose around backend dataset = .ok c ∧
      b.storage.makeFolders (.ofText around.folder) = (b'.storage, none) ∧ b'.index = b.index)
      (configure around backend dataset) b := by
  cases hchosen : Configuration.choose around backend dataset with
  | error e => exact .error (does_configure_error hchosen) hb
  | ok c =>
    have hdoes := does_configure (b := b) hchosen
    rw [Configuration.folder_of_choose hchosen] at hdoes
    cases hfailure : (b.storage.makeFolders (.ofText around.folder)).2 with
    | some e =>
      rw [hfailure] at hdoes
      exact .error hdoes hmade
    | none =>
      rw [hfailure] at hdoes
      exact .ok hdoes ⟨rfl, Prod.ext rfl hfailure, rfl⟩

/-- The cached index is the one that is there, or is made in a storage that is prepared. -/
theorem ends_theIndex [Language] (c : Configuration) (b : CliState) :
    Ends (· = b) (fun x b' => b'.index = some x ∧ (b' = b ∨ b.index = none ∧
      ∃ p : Backend, c.backend? = some p.name ∧ x = p.newIndex c.folder ∧
        p.prepare c.folder b.storage = .ok b'.storage))
      (theIndex c) b := by
  cases hindex : b.index with
  | some x => exact .ok (does_theIndex_of_some hindex) ⟨hindex, .inl rfl⟩
  | none =>
    cases hbackend : c.backend? with
    | none => exact .error (does_theIndex_of_no_section hindex hbackend) rfl
    | some backend =>
      obtain ⟨p, hp⟩ := exists_backend hbackend
      have hdoes := does_theIndex_of_none hindex hp
      cases hprepared : p.prepare c.folder b.storage with
      | error e =>
        rw [hprepared] at hdoes
        exact .error hdoes rfl
      | ok s =>
        rw [hprepared] at hdoes
        exact .ok hdoes ⟨rfl, .inr ⟨rfl, p, hbackend.symm.trans hp, rfl, hprepared⟩⟩

/-- What is kept of the state by the making of an index and by the operations on it: by creating and
deleting only if there are to be changes. -/
structure Upheld [Language] (folder : Path) (changes : Prop) (P : CliState → Prop) : Prop where
  made : ∀ (p : Backend) b s, P b → b.index = none → p.prepare folder b.storage = .ok s →
    P ⟨s, some (p.newIndex folder)⟩
  load : ∀ x b path, P b → b.index = some x →
    P ⟨(x.load b.storage path).storage, some (x.load b.storage path).index⟩
  create : changes → ∀ x b now name entries, P b → b.index = some x →
    P ⟨(x.create b.storage now name entries).storage,
      some (x.create b.storage now name entries).index⟩
  delete : changes → ∀ x b name, P b → b.index = some x →
    P ⟨(x.delete b.storage name).storage, some (x.delete b.storage name).index⟩

namespace Upheld

variable {folder : Path} {changes : Prop} {P : CliState → Prop} {c : Configuration}
  {around : Surroundings}

theorem theIndex [Language] (h : Upheld folder changes P) (hc : c.folder = folder) (hb : P b) :
    Ends P (fun x b' => P b' ∧ b'.index = some x) (theIndex c) b := by
  refine (ends_theIndex c b).weaken (by rintro _ rfl; exact hb) ?_
  rintro x b' ⟨hx, rfl | ⟨hnone, p, -, rfl, hprepared⟩⟩
  · exact ⟨hb, hx⟩
  · rw [hc] at hx hprepared
    have hmade := h.made p b b'.storage hb hnone hprepared
    rw [← hx] at hmade
    exact ⟨hmade, hc ▸ hx⟩

theorem loads [Language] (h : Upheld folder changes P) (hc : c.folder = folder) (hb : P b) (name :
    Json) :
    Ends P (fun _ b' => P b') (Work.load c name) b := by
  refine (h.theIndex hc hb).bind fun x b' ⟨hb', hx⟩ => ?_
  refine ((reads_lift name.text).ends hb').bind fun t s ⟨_, hs⟩ => ?_
  subst hs
  refine Ends.get (f := fun s => settle (x.load s (x.home.child t))) ?_
  have hloaded := h.load x s (x.home.child t) hb' hx
  refine (ends_settle hloaded).weaken (fun _ h => h) ?_
  rintro _ _ ⟨-, -, rfl⟩
  exact hloaded

theorem read (hb : P b) {w : Work α} {r : IndexStorage → Except Failure α} (hw : Reads w r) :
    Ends P (fun _ b' => P b') w b := by
  refine (hw.ends hb).weaken (fun _ h => h) ?_
  rintro _ _ ⟨-, rfl⟩
  exact hb

/-- What the operations keep is kept by every command that only reads, and by all commands if there
may be changes. -/
theorem command [Language] (h : Upheld folder changes P) (around : Surroundings) {command : Command}
    (hc : command.OnlyReads ∨ changes) :
    ∃ backend dataset f, perform around command = configure around backend dataset >>= f ∧
      ∀ c b, c.folder = folder → P b → Ends P (fun _ b' => P b') (f c) b := by
  cases command with
  | search query name limit backend =>
    exact ⟨backend, .null, _, search_eq, fun c b hfolder hb => (h.loads hfolder hb name).bind
      fun x b' hb' => read hb' (reads_answering c query limit x)⟩
  | showDocument doc name backend =>
    exact ⟨backend, .null, _, showDocument_eq, fun c b hfolder hb => (h.loads hfolder hb name).bind
      fun x b' hb' => read hb' (reads_showing doc name x)⟩
  | listIndices backend =>
    refine ⟨backend, .null, _, listIndices_eq, fun c b hfolder hb => ?_⟩
    refine (h.theIndex hfolder hb).bind fun x b' ⟨hb', hx⟩ => ?_
    exact Ends.get (f := fun s => liftM (x.stored s) >>= listing)
      (read hb' ((reads_lift _).bind reads_listing))
  | showConfig backend =>
    exact ⟨backend, .null, _, rfl, fun c b _ hb =>
      read hb ((reads_print _).seq (reads_pure Json.null))⟩
  | createIndex dataset name sample backend =>
    have hchanges : changes := hc.resolve_left id
    refine ⟨backend, dataset, _, createIndex_eq, fun c b hfolder hb => ?_⟩
    obtain ⟨r, hdocuments⟩ := reads_documentsFor c sample
    refine (read hb (reads_heading _)).bind fun _ _ hb => ?_
    refine (read hb (reads_lift _)).bind fun shown _ hb => ?_
    refine (read hb (reads_say _ _)).bind fun _ _ hb => ?_
    refine (read hb hdocuments).bind fun documents _ hb => ?_
    refine (read hb (reads_say _ _)).bind fun _ _ hb => ?_
    refine (h.theIndex hfolder hb).bind fun x b' ⟨hb', hx⟩ => ?_
    refine Ends.get (f := creating around (nameFor around sample name) shown documents x) ?_
    have hcreated := h.create hchanges x b' around.now (nameFor around sample name)
      (documents.map entryOf) hb' hx
    refine (ends_settle hcreated).bind ?_
    rintro _ _ ⟨-, -, rfl⟩
    exact read hcreated ((reads_say _ _).seq (reads_pure _))
  | deleteIndex name backend =>
    have hchanges : changes := hc.resolve_left id
    refine ⟨backend, .null, _, deleteIndex_eq, fun c b hfolder hb => ?_⟩
    refine (read hb (reads_lift _)).bind fun _ _ hb => ?_
    refine (read hb (reads_say _ _)).bind fun _ _ hb => ?_
    refine (h.theIndex hfolder hb).bind fun x b' ⟨hb', hx⟩ => ?_
    refine ((reads_lift name.text).ends hb').bind fun t s ⟨_, hs⟩ => ?_
    subst hs
    refine Ends.get (f := deleting t x) ?_
    have hdeleted := h.delete hchanges x s t hb' hx
    refine (ends_settle hdeleted).bind ?_
    rintro _ _ ⟨-, -, rfl⟩
    exact read hdeleted ((reads_say _ _).seq (reads_pure _))
  | demo =>
    have hchanges : changes := hc.resolve_left id
    refine ⟨.null, .null, _, demo_eq, fun c b hfolder hb => ?_⟩
    refine (h.theIndex hfolder hb).bind fun x b' ⟨hb', hx⟩ => ?_
    refine Ends.get (f := demonstrating around c x) ?_
    have hcreated := h.create hchanges x b' around.now (.str demoName)
      (sampleDocuments.map entryOf) hb' hx
    refine (ends_settle hcreated).bind ?_
    rintro x _ ⟨-, rfl, rfl⟩
    refine ((reads_forM (reads_showQuery _ _) demoQueries).ends hcreated).bind ?_
    rintro _ _ ⟨-, rfl⟩
    refine Ends.get (f := clearingAway _) ?_
    have hdeleted := h.delete hchanges _ _ demoName hcreated rfl
    refine (ends_settle hdeleted).bind ?_
    rintro _ _ ⟨-, -, rfl⟩
    exact read hdeleted (reads_pure _)

end Upheld

end Work

open Work (Upheld runAt perform)

/-- The storage hangs together and its formats can be written, and the cached index is one that
commands make, in whatever folder. -/
structure Kept [Language] (b : CliState) : Prop where
  grounded : b.storage.Grounded
  saved : SavedAs (fun j => j.isWritable = true) b.storage
  index : ∀ x, b.index = some x → ∃ (p : Backend) (folder : Path), p.Makes folder x

namespace Kept

variable {b : CliState} {d : SearchCli} {s s' : IndexStorage}

theorem new [Language] (h : s.Grounded) (hsaved : SavedAs (fun j => j.isWritable = true) s) :
    Kept (SearchCli.new s).state where
  grounded := h
  saved := hsaved
  index := fun x hx => by cases hx

theorem makeFolders [Language] (h : Kept b) (path : Path) :
    Kept ⟨(b.storage.makeFolders path).1, b.index⟩ where
  grounded := h.grounded.makeFolders path
  saved := h.saved.of_noNewFiles (Storage.noNewFiles_makeFolders _ path)
  index := h.index

/-- The state in which an index of a kind is cached. -/
theorem of_makes [Language] {p : Backend} {folder : Path} {x : Index} (hs : s.Grounded)
    (hsaved : SavedAs (fun j => j.isWritable = true) s) (hx : p.Makes folder x) :
    Kept ⟨s, some x⟩ where
  grounded := hs
  saved := hsaved
  index := fun y hy => by
    cases hy
    exact ⟨p, folder, hx⟩

/-- Only a folder may be made before an index is. -/
theorem storage_prepare {P : IndexStorage → Prop} {p : Backend} {folder : Path}
    (hmake : ∀ path, P (s.makeFolders path).1) (hs : P s) (h : p.prepare folder s = .ok s') :
    P s' := by
  cases p with
  | memory =>
    have hmade := hmake (Backend.memory.home folder)
    rw [Backend.prepare] at h
    split at h
    · next made hfolders =>
      cases h
      rwa [hfolders] at hmade
    · cases h
  | database =>
    cases h
    exact hs

theorem grounded_prepare {p : Backend} {folder : Path} (h : s.Grounded)
    (hs : p.prepare folder s = .ok s') : s'.Grounded :=
  storage_prepare h.makeFolders h hs

theorem saved_create [Language] {p : Backend} {folder : Path} {x : Index} (h : p.Makes folder x)
    (hs : SavedAs (fun j => j.isWritable = true) s) (now : Text) (name : Json)
    (entries : List Json) :
    SavedAs (fun j => j.isWritable = true) (x.create s now name entries).storage := by
  have hremove (s : IndexStorage) (path : Path) (hs : SavedAs (fun j => j.isWritable = true) s) :
      SavedAs (fun j => j.isWritable = true) (s.remove path).1 :=
    hs.of_noNewFiles (Storage.noNewFiles_remove s path)
  have hmake (s : IndexStorage) (path : Path) (hs : SavedAs (fun j => j.isWritable = true) s) :
      SavedAs (fun j => j.isWritable = true) (s.makeFolders path).1 :=
    hs.of_noNewFiles (Storage.noNewFiles_makeFolders s path)
  cases x with
  | memory x =>
    obtain ⟨j, hformat, hj⟩ := h.format x rfl
    exact MemoryIndex.storage_create hformat (fun t _ s => hremove s _) hmake
      (fun s path files hs hfiles => hs.writeIn (Json.isWritable_restored j hj) path hfiles) hs now
      entries
  | database x =>
    have hother : DatabaseIndex.databaseFile ≠ Tables.metadataFile := by decide
    refine DatabaseIndex.storage_create hremove hmake (fun s path d hs => ?_) hs name entries
    refine hs.writeIn (?_ : Json.isWritable (Json.restored .null) = true) path ?_
    · rfl
    · exact List.forall_mem_singleton.mpr fun hname => absurd hname hother

theorem upheld [Language] (folder : Path) : Upheld folder True Kept where
  made p b s hb _ hs :=
    of_makes (grounded_prepare hb.grounded hs)
      (storage_prepare (fun path => hb.saved.of_noNewFiles (Storage.noNewFiles_makeFolders _ path))
        hb.saved hs)
      (p.makes_newIndex folder)
  load x b path hb hx := by
    obtain ⟨p, folder, hp⟩ := hb.index x hx
    rw [x.storage_load]
    exact of_makes hb.grounded hb.saved (hp.load hb.saved path)
  create _ x b now name entries hb hx := by
    obtain ⟨p, folder, hp⟩ := hb.index x hx
    exact of_makes (x.grounded_create hb.grounded now name entries)
      (saved_create hp hb.saved now name entries) (hp.create b.storage now name entries)
  delete _ x b name hb hx := by
    obtain ⟨p, folder, hp⟩ := hb.index x hx
    exact of_makes (x.grounded_delete hb.grounded name)
      (Index.storage_delete hb.saved (hb.saved.of_noNewFiles (Storage.noNewFiles_remove _ _)))
      (hp.delete b.storage name)

theorem perform [Language] (h : Kept d.state) (around : Surroundings) (command : Command) :
    Kept (runAt (perform around command) d).2.state := by
  obtain ⟨backend, dataset, f, heq, hf⟩ :=
    (upheld (.ofText around.folder)).command around (.inr trivial)
  rw [heq]
  have hmade := h.makeFolders (.ofText around.folder)
  refine Work.Ends.left ((Work.ends_configure backend dataset h hmade).bind ?_)
    (fun _ _ h => h) rfl
  rintro c ⟨s, x⟩ ⟨hchosen, hfolders, rfl⟩
  rw [hfolders] at hmade
  exact hf c _ (Configuration.folder_of_choose hchosen) hmade

/-- The state is kept so by any commands. -/
theorem after [Language] (h : Kept d.state) (commands : List (Surroundings × Command)) :
    Kept (d.after commands).state := by
  induction commands generalizing d with
  | nil => exact h
  | cons e rest ih => exact ih (h.perform e.1 e.2)

end Kept

end Concordance
