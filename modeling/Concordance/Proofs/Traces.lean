import Concordance.Proofs.KeptState

/-!
# What reading leaves behind

A command that only reads may make the folder of all indexes and the folders of indexes of
either kind, and changes nothing else. New commands do not notice: they list the same
indexes, and what could be loaded is loaded and is the same.
-/
namespace Concordance

namespace Storage

variable {κ : Type} {s s' : Storage κ} {home path : Path} {places : Path → Prop} {name : Text}

theorem OnlyMakes.reaches (h : OnlyMakes s s' places) (hs : s.Reaches path) : s'.Reaches path :=
  hs.of_way fun k hk => by rw [h.isFolder (hs.folders k hk), hs.folders k hk]

/-- In a folder that is there, the making of another one makes nothing else. -/
theorem onlyMakes_makeFolders_child (hs : s.Reaches home) (hname : IsName name) :
    OnlyMakes s (s.makeFolders (home.child name)).1 (· = (home.child name).destination) := by
  have hlength := Path.length_child hname home
  have hreaches : s.Reaches ((home.child name).upTo home.names.length) := by
    rwa [Path.upTo_child hname (Nat.le_refl _), Path.upTo_length]
  refine (onlyMakes_makeFolders_below hreaches (by omega)).weaken ?_
  rintro p ⟨k, hk, hk', rfl⟩
  obtain rfl : k = home.names.length + 1 := by omega
  rw [← hlength, Path.upTo_length]

/-- A folder is made or not in the same way where only new folders have been made, and these are
again all that is different. -/
theorem OnlyMakes.makeFolder (h : OnlyMakes s s' places)
    (hplace : s.locate path = .ok path.destination)
    (hplace' : s'.locate path = .ok path.destination) (last : Bool) :
    (s'.makeFolder last path).2 = (s.makeFolder last path).2 ∧
      OnlyMakes (s.makeFolder last path).1 (s'.makeFolder last path).1 places := by
  simp only [Storage.makeFolder, hplace, hplace']
  cases hnode : s.node? path.destination with
  | some node =>
    rw [h.node? (by rw [hnode]; simp), hnode]
    cases node with
    | folder => exact ⟨rfl, h⟩
    | file content => exact ⟨rfl, h⟩
  | none =>
    have hmade (t : Storage κ) (ht : t.node? path.destination = some .folder)
        (hother : ∀ p, p ≠ path.destination → t.node? p = s'.node? p) :
        OnlyMakes (s.put path.destination .folder) t places := by
      intro p
      rw [node?_put]
      by_cases hp : p = path.destination
      · rw [if_pos hp, hp, ht]
        exact .inl rfl
      · rw [if_neg hp, hother p hp]
        exact h p
    obtain hsame | ⟨-, -, hfolder⟩ := h path.destination
    · rw [hsame, hnode]
      refine ⟨rfl, hmade _ (by rw [node?_put, if_pos rfl]) fun p hp => ?_⟩
      rw [node?_put, if_neg hp]
    · rw [hfolder]
      exact ⟨rfl, hmade s' hfolder fun _ _ => rfl⟩

end Storage

namespace Storage

theorem folders_of_file {κ : Type} {s : Storage κ} {path place : Path} {content : κ}
    (hplace : s.locate path = .ok place) (hnode : s.node? place = some (.file content)) :
    s.folders path = .error .notAFolder := by
  rw [folders, names, hplace, ok_bind, hnode]

end Storage

theorem Index.stored_of_present {x : Index} {s : IndexStorage}
    (h : s.contains x.home = .ok true) : x.stored s = s.folders x.home := by
  cases x with
  | memory x => rfl
  | database x =>
    simp only [home] at h ⊢
    rw [stored, DatabaseIndex.stored, h]
    rfl

open Storage (OnlyMakes Keeps)

/-- A place is the folder for indexes of one kind or the other. -/
def IsHome (folder place : Path) : Prop := ∃ p : Backend, place = (p.home folder).destination

namespace Backend

variable {p : Backend} {folder : Path} {s s' : IndexStorage}

theorem destination_home (p : Backend) (folder : Path) :
    (p.home folder).destination = folder.destination.inside p.homeName :=
  Path.destination_child p.isFileName_homeName.1 folder

/-- What lies in a folder for indexes is not such a folder. -/
theorem not_isHome_inside (p : Backend) (folder : Path) (name : Text) :
    ¬IsHome folder ((p.home folder).destination.inside name) := by
  rintro ⟨q, hq⟩
  rw [destination_home, destination_home] at hq
  have hlength := congrArg (fun place => place.names.length) hq
  simp [Path.inside] at hlength

/-- Storage is prepared by making the folder for indexes of a kind. -/
theorem onlyMakes_prepare (hs : s.Reaches folder) (h : p.prepare folder s = .ok s') :
    OnlyMakes s s' (IsHome folder) := by
  cases p with
  | memory =>
    have honly := Storage.onlyMakes_makeFolders_child hs memory.isFileName_homeName.1
    rw [prepare] at h
    split at h
    · next made hmade =>
      cases h
      have hmade : s.makeFolders (folder.child memory.homeName) = (s', none) := hmade
      rw [hmade] at honly
      exact honly.weaken fun place hplace => ⟨memory, hplace⟩
    · cases h
  | database =>
    cases h
    exact .refl s _

theorem isForbidden_home (p : Backend) (folder : Path) :
    (p.home folder).isForbidden = folder.isForbidden := by
  rw [home, Path.child_eq_inside p.isFileName_homeName.1]
  simp only [Path.isForbidden, Path.inside, List.any_append, List.any_cons, List.any_nil,
    p.isFileName_homeName.2.1, Bool.or_false]

theorem isTooLong_home (h : ¬folder.Takes p.homeName) : (p.home folder).isTooLong = true := by
  by_contra hshort
  refine h ⟨p.isFileName_homeName, ?_⟩
  rw [Path.fits, Bool.not_eq_true']
  exact (Bool.not_eq_true _).mp hshort

/-- Where only folders for indexes have been made, storage is prepared or not in the same way. -/
theorem prepare_of_onlyMakes (h : OnlyMakes s s' (IsHome folder)) (hs : s.Reaches folder)
    (p : Backend) :
    (∃ e, p.prepare folder s = .error e ∧ p.prepare folder s' = .error e) ∨
      ∃ t t', p.prepare folder s = .ok t ∧ p.prepare folder s' = .ok t' ∧
        OnlyMakes t t' (IsHome folder) ∧ t.Reaches folder ∧
        (p = .memory → t.Reaches (p.home folder)) := by
  cases p with
  | database => exact .inr ⟨s, s', rfl, rfl, h, hs, fun hp => by cases hp⟩
  | memory =>
    have hs' := h.reaches hs
    by_cases htakes : folder.Takes memory.homeName
    · have hmade := Storage.makeFolders_child hs htakes
      have hmade' := Storage.makeFolders_child hs' htakes
      have hplace : s.locate (memory.home folder) = .ok (memory.home folder).destination := by
        rw [destination_home]
        exact hs.locate_child htakes
      have hplace' : s'.locate (memory.home folder) = .ok (memory.home folder).destination := by
        rw [destination_home]
        exact hs'.locate_child htakes
      obtain ⟨hfailure, honly⟩ := h.makeFolder hplace hplace' true
      have hreaches := hs.makeFolders (memory.home folder)
      have hroot : s.isFolder ((memory.home folder).upTo 0).destination = true := by
        rw [home, Path.child_eq_inside memory.isFileName_homeName.1,
          Path.upTo_inside (Nat.zero_le _)]
        exact hs.folders 0 (Nat.zero_le _)
      rw [prepare, prepare, home, hmade, hmade', ← home]
      cases hresult : s.makeFolder true (memory.home folder) with
      | mk t failure =>
        cases hresult' : s'.makeFolder true (memory.home folder) with
        | mk t' failure' =>
          rw [hresult, hresult'] at hfailure honly
          simp only at hfailure honly
          subst hfailure
          cases failure' with
          | some e => exact .inl ⟨e, rfl, rfl⟩
          | none =>
            have hhome : s.makeFolders (memory.home folder) = (t, none) := hmade.trans hresult
            rw [hhome] at hreaches
            exact .inr ⟨t, t', rfl, rfl, honly, hreaches,
              fun _ => (Storage.reaches_of_makeFolders hroot hhome).1⟩
    · have hforbidden : (memory.home folder).isForbidden = false :=
        (isForbidden_home memory folder).trans (Storage.locate_eq_ok_iff.mp hs.located).1
      have hlong (u : IndexStorage) : memory.prepare folder u = .error .nameTooLong := by
        rw [prepare, Storage.makeFolders, hforbidden, isTooLong_home htakes]
        rfl
      exact .inl ⟨_, hlong s, hlong s'⟩

/-- No database is listed where there is nothing in their home, or no home. -/
theorem stored_of_empty [Language] (hs : s.Reaches folder) (htakes : folder.Takes database.homeName)
    (hfree : ∀ content, s.node? (database.home folder).destination ≠ some (.file content))
    (hempty : ∀ name, s.isFolder ((database.home folder).destination.inside name) = false) :
    (database.newIndex folder).stored s = .ok [] := by
  have hthere : s.contains (database.home folder) = _ := hs.contains_child htakes
  rw [← destination_home] at hthere
  cases hnode : s.node? (database.home folder).destination with
  | none =>
    rw [hnode] at hthere
    exact Index.stored_of_missing (.refl _) hthere
  | some node =>
    cases node with
    | file content => exact absurd hnode (hfree content)
    | folder =>
      have hfolder : s.isFolder (folder.destination.inside database.homeName) = true := by
        rw [← destination_home, Storage.isFolder_iff, hnode]
      have hreaches : s.Reaches (database.home folder) := hs.child htakes hfolder
      rw [Index.stored_of_reaches (x := database.newIndex folder) hreaches]
      refine Storage.folders_eq hreaches .nil fun name => iff_of_false List.not_mem_nil ?_
      rintro ⟨-, hfolder⟩
      rw [hempty] at hfolder
      cases hfolder

/-- Where a file is in the place of their home, databases are not listed. -/
theorem stored_of_file [Language] (hs : s.Reaches folder) (htakes : folder.Takes database.homeName)
    {content : Content}
    (hnode : s.node? (database.home folder).destination = some (.file content)) :
    (database.newIndex folder).stored s = .error .notAFolder := by
  have hplace : s.locate (database.home folder) = .ok (folder.destination.inside _) :=
    hs.locate_child htakes
  rw [← destination_home] at hplace
  have hthere := Storage.contains_of_locate hplace
  rw [hnode] at hthere
  rw [Index.stored_of_present (x := database.newIndex folder) hthere]
  exact Storage.folders_of_file hplace hnode

/-- Where only folders for indexes have been made, the same indexes are listed. -/
theorem stored_of_onlyMakes [Language] (h : OnlyMakes s s' (IsHome folder)) (hs : s.Reaches folder)
    (hgrounded : s.Grounded) (hhome : p = .memory → s.Reaches (p.home folder)) :
    (p.newIndex folder).stored s' = (p.newIndex folder).stored s := by
  have hs' := h.reaches hs
  have hinside (name : Text) : s'.isFolder ((p.home folder).destination.inside name) =
      s.isFolder ((p.home folder).destination.inside name) := by
    obtain hsame | ⟨hplace, -⟩ := h ((p.home folder).destination.inside name)
    · exact Storage.isFolder_congr hsame
    · exact absurd hplace (not_isHome_inside p folder name)
  have hreached (hthere : s.Reaches (p.home folder)) :
      (p.newIndex folder).stored s' = (p.newIndex folder).stored s := by
    have hthere' := h.reaches hthere
    rw [← p.home_newIndex folder] at hthere hthere' hinside
    rw [Index.stored_of_reaches hthere, Index.stored_of_reaches hthere']
    exact Storage.folders_congr hthere hthere' hinside
  cases p with
  | memory => exact hreached (hhome rfl)
  | database =>
    by_cases htakes : folder.Takes database.homeName
    · cases hnode : s.node? (database.home folder).destination with
      | none =>
        -- A home that is new is still empty.
        have hempty (name : Text) :
            s.isFolder ((database.home folder).destination.inside name) = false := by
          rw [Storage.isFolder, hgrounded.rooted _ name (by rw [Storage.isFolder, hnode])]
        rw [stored_of_empty hs htakes (by simp [hnode]) hempty]
        refine stored_of_empty hs' htakes (fun content hfile => ?_) fun name => ?_
        · obtain hsame | ⟨-, -, hfolder⟩ := h (database.home folder).destination
          · rw [hsame, hnode] at hfile
            cases hfile
          · rw [hfolder] at hfile
            cases hfile
        · rw [hinside, hempty]
      | some node =>
        cases node with
        | folder =>
          refine hreached (hs.child htakes ?_)
          rw [← destination_home]
          exact Storage.isFolder_iff.mpr hnode
        | file content =>
          rw [stored_of_file hs htakes hnode,
            stored_of_file hs' htakes ((h.node? (by simp [hnode])).trans hnode)]
    · have hforbidden : (database.home folder).isForbidden = false :=
        (isForbidden_home database folder).trans (Storage.locate_eq_ok_iff.mp hs.located).1
      have hlong (u : IndexStorage) : u.contains (database.home folder) = .error .nameTooLong := by
        rw [Storage.contains, Storage.locate, hforbidden, isTooLong_home htakes]
        rfl
      rw [newIndex, Index.stored, Index.stored, DatabaseIndex.stored, DatabaseIndex.stored]
      simp only [DatabaseIndex.new, hlong, error_bind]

end Backend

namespace Work

variable {around : Surroundings} {p : Backend} {s s' t : IndexStorage} {name : Json} {folder : Path}

/-- What a new command lists of the indexes of a kind. -/
def listed [Language] (around : Surroundings) (p : Backend) (s : IndexStorage) :
    Except Failure Json :=
  (runAt (listIndices around (.str p.name)) (.new s)).1

/-- What a new command loads under a name as an index of a kind. -/
def opened [Language] (around : Surroundings) (p : Backend) (name : Json) (s : IndexStorage) :
    Except Failure Index :=
  (runAt (opening around (.str p.name) name) (.new s)).1

/-- A kind of index is chosen by its name. -/
theorem choose_part (around : Surroundings) (p : Backend) :
    Configuration.choose around (.str p.name) .null =
      .ok ⟨[p], .ok (.ofText around.dataset), .ofText around.folder⟩ := by
  cases p <;> rfl

/-- Where the folder of all indexes is there, a new command prepares the storage for a kind of index
and goes on with an index that holds nothing. -/
theorem first_eq [Language] (h : s.Reaches (.ofText around.folder)) (p : Backend) {α : Type}
    {f : Configuration → Index → Work α} {r : IndexStorage → Except Failure α}
    (hf : ∀ t c, ∃ b', Does (f c (p.newIndex (.ofText around.folder)))
      ⟨t, some (p.newIndex (.ofText around.folder))⟩ (r t) b') :
    (runAt (do
      let c ← configure around (.str p.name) .null
      let x ← theIndex c
      f c x) (.new s)).1 = p.prepare (.ofText around.folder) s >>= r := by
  have hconfigured := does_configure (b := (SearchCli.new s).state) (choose_part around p)
  have hstate : (SearchCli.new s).state.storage = s := rfl
  rw [hstate, Storage.makeFolders_of_reaches h] at hconfigured
  have hindex := does_theIndex_of_none (b := ⟨s, none⟩) (c := ⟨[p], .ok (.ofText around.dataset),
    .ofText around.folder⟩) (p := p) rfl rfl
  simp only at hindex
  cases hprepared : p.prepare (.ofText around.folder) s with
  | error e =>
    rw [hprepared] at hindex
    exact (hconfigured.bind hindex.bind_error (.new s) rfl).1
  | ok t =>
    rw [hprepared] at hindex
    obtain ⟨b', hrest⟩ := hf t ⟨[p], .ok (.ofText around.dataset), .ofText around.folder⟩
    exact (hconfigured.bind (hindex.bind hrest) (.new s) rfl).1

theorem listed_eq [Language] (h : s.Reaches (.ofText around.folder)) (p : Backend) :
    listed around p s = p.prepare (.ofText around.folder) s >>= fun t =>
      (p.newIndex (.ofText around.folder)).stored t >>=
        fun names => .ok (.arr (names.map .str)) := by
  rw [listed, listIndices_eq]
  refine first_eq h p (f := fun _ x => do listing (← x.stored (← get).storage)) fun t c => ?_
  exact ⟨_, Does.get (f := fun s => liftM ((p.newIndex _).stored s) >>= listing)
    ((reads_lift _).bind reads_listing _)⟩

/-- What a load from a storage gives to be read. -/
def loadedFrom (x : Index) (name : Json) (t : IndexStorage) : Except Failure Index :=
  name.text >>= fun n =>
    (x.load t (x.home.child n)).failure.elim (.ok (x.load t (x.home.child n)).index) .error

theorem opened_eq [Language] (h : s.Reaches (.ofText around.folder)) (p : Backend) (name : Json) :
    opened around p name s = p.prepare (.ofText around.folder) s >>=
      loadedFrom (p.newIndex (.ofText around.folder)) name := by
  refine first_eq h p (f := fun _ x => do
    let n ← name.text
    settle (x.load (← get).storage (x.home.child n))) fun t c => ?_
  rw [loadedFrom]
  cases hname : name.text with
  | error e => exact ⟨_, (reads_lift (.error e) _).bind_error⟩
  | ok n =>
    have hsettled := does_settle (b := ⟨t, some (p.newIndex (.ofText around.folder))⟩)
      ((p.newIndex (.ofText around.folder)).load t
        ((p.newIndex (.ofText around.folder)).home.child n))
    exact ⟨_, (reads_lift (.ok n) _).bind (Does.get
      (f := fun s => settle ((p.newIndex _).load s ((p.newIndex _).home.child n))) hsettled)⟩

section Making

variable (h : OnlyMakes s s' (IsHome (.ofText around.folder)))
  (hs : s.Reaches (.ofText around.folder)) (hgrounded : s.Grounded)
include h hs hgrounded

theorem listed_of_onlyMakes [Language] (p : Backend) : listed around p s' = listed around p s := by
  rw [listed_eq hs, listed_eq (h.reaches hs)]
  obtain ⟨e, he, he'⟩ | ⟨t, t', ht, ht', honly, hfolder, hhome⟩ := p.prepare_of_onlyMakes h hs
  · rw [he, he']
  · rw [ht, ht', ok_bind, ok_bind,
      Backend.stored_of_onlyMakes honly hfolder (Kept.grounded_prepare hgrounded ht) hhome]

theorem opened_of_onlyMakes [Language] {x : Index} (hx : opened around p name s = .ok x) :
    opened around p name s' = .ok x := by
  rw [opened_eq hs, bind_eq_ok_iff] at hx
  obtain ⟨t, ht, hx⟩ := hx
  obtain ⟨e, he, -⟩ | ⟨t', u, ht', hu, honly, -, -⟩ := p.prepare_of_onlyMakes h hs
  · rw [he] at ht
    cases ht
  · rw [ht'] at ht
    cases ht
    rw [opened_eq (h.reaches hs), hu, ok_bind]
    rw [loadedFrom, bind_eq_ok_iff] at hx ⊢
    obtain ⟨n, hn, hx⟩ := hx
    refine ⟨n, hn, ?_⟩
    generalize (p.newIndex (.ofText around.folder)).home.child n = path at hx ⊢
    have hkeeps := honly.keeps (Kept.grounded_prepare hgrounded ht') path
    have hstorage := (p.newIndex (.ofText around.folder)).storage_load t path
    cases hload : (p.newIndex (.ofText around.folder)).load t path with
    | mk y stored log failure =>
      rw [hload] at hx hstorage
      cases hstorage
      cases failure with
      | some e => cases hx
      | none =>
        rw [Index.load_keeps hkeeps hload]
        exact hx

end Making

end Work

open Work (listed opened runAt perform)

/-- What may be left of a storage by a command that only reads: it is as it was, or the folder of
all indexes has been made as far as it could be, and folders for indexes in it. -/
inductive Traced (folder : Path) (s s' : IndexStorage) : Prop
  | same (h : s' = s)
  | made (h : s' = (s.makeFolders folder).1)
  | homes {t : IndexStorage} (h : s.makeFolders folder = (t, none))
      (honly : OnlyMakes t s' (IsHome folder))

namespace Traced

variable {folder : Path} {s s' : IndexStorage} {around : Surroundings}

/-- Once the folder of all indexes has been made, only folders for indexes are made with an index,
and nothing is made by a load. -/
theorem upheld [Language] (h : s.Grounded) (folder : Path) :
    Work.Upheld folder False fun b => ∀ t, s.makeFolders folder = (t, none) →
      OnlyMakes t b.storage (IsHome folder) where
  made _ _ _ hb _ hprepared t ht := by
    have honly := hb t ht
    have hreaches := honly.reaches (h.reaches_of_made ht)
    exact (honly.trans (Backend.onlyMakes_prepare hreaches hprepared)).weaken
      fun _ hplace => hplace.elim id id
  load x b path hb _ := (x.storage_load b.storage path).symm ▸ hb
  create hchanges := hchanges.elim
  delete hchanges := hchanges.elim

theorem of_onlyReads [Language] {d : SearchCli} (h : d.storage.Grounded) (around : Surroundings)
    {command : Command} (hreads : command.OnlyReads) :
    Traced (.ofText around.folder) d.storage (runAt (perform around command) d).2.storage := by
  obtain ⟨backend, dataset, f, heq, hf⟩ := (upheld h _).command around (.inl hreads)
  rw [heq]
  refine Work.Ends.left (b := d.state)
    (E := fun b => Traced (.ofText around.folder) d.storage b.storage)
    ((Work.ends_configure backend dataset (.same rfl) (.made rfl)).bind ?_) (fun _ _ h => h) rfl
  rintro c b ⟨hchosen, hmade, -⟩
  have hc := Configuration.folder_of_choose hchosen
  have hstart (t : IndexStorage) (ht : d.storage.makeFolders (.ofText around.folder) = (t, none)) :
      OnlyMakes t b.storage (IsHome (.ofText around.folder)) := by
    have hmade : d.storage.makeFolders (.ofText around.folder) = (b.storage, none) := hmade
    rw [hmade] at ht
    cases ht
    exact .refl b.storage _
  exact (hf c b hc hstart).weaken (fun b' hb' => .homes hmade (hb' _ hmade))
    fun _ b' hb' => .homes hmade (hb' _ hmade)

/-- Where a folder has been made, new CLIs are as they would be without it. -/
theorem madeAlike (folder : Path) (s : IndexStorage) :
    MadeAlike folder (SearchCli.new s).state (SearchCli.new (s.makeFolders folder).1).state :=
  ⟨Storage.makeFolders_again s folder, rfl⟩

theorem listed_makeFolders [Language] (around : Surroundings) (p : Backend) (s : IndexStorage) :
    listed around p (s.makeFolders (.ofText around.folder)).1 = listed around p s :=
  ((madeAlike (.ofText around.folder) s).perform rfl (.listIndices (.str p.name))).1

theorem opened_makeFolders [Language] (around : Surroundings) (p : Backend) (name : Json) (s :
    IndexStorage) :
    opened around p name (s.makeFolders (.ofText around.folder)).1 = opened around p name s :=
  ((madeAlike (.ofText around.folder) s).configured rfl (.str p.name) .null
    fun c => Work.determined_load c name).1

/-- A new command lists the same indexes as before. -/
theorem listed [Language] (h : Traced (.ofText around.folder) s s') (hs : s.Grounded) (p :
    Backend) :
    listed around p s' = listed around p s := by
  cases h with
  | same h => rw [h]
  | made h => rw [h, listed_makeFolders]
  | @homes t h honly =>
    have hgrounded := hs.makeFolders (.ofText around.folder)
    have hsame := listed_makeFolders around p s
    rw [h] at hgrounded hsame
    rw [Work.listed_of_onlyMakes honly (hs.reaches_of_made h) hgrounded, hsame]

/-- What could be loaded before can be loaded, and is the same. -/
theorem opened [Language] (h : Traced (.ofText around.folder) s s') (hs : s.Grounded) {p :
    Backend} {name : Json}
    {x : Index} (hx : opened around p name s = .ok x) : Work.opened around p name s' = .ok x := by
  cases h with
  | same h => rw [h, hx]
  | made h => rw [h, opened_makeFolders, hx]
  | @homes t h honly =>
    have hgrounded := hs.makeFolders (.ofText around.folder)
    have hsame := opened_makeFolders around p name s
    rw [h] at hgrounded hsame
    exact Work.opened_of_onlyMakes honly (hs.reaches_of_made h) hgrounded (hsame.trans hx)

end Traced

end Concordance
