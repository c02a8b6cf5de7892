import Concordance.Proofs.Commands
import Concordance.Proofs.Lockstep
import Concordance.Proofs.OneBackend

/-!
# A CLI that has been used

The first command of a CLI makes the index that is cached, and every later one works on it,
whatever kind of index it asks for. Commands that all ask for one kind find with a CLI that
has been used what they would find with a new one over the same storage.
-/
namespace Concordance

open Work (Lockstep Equally runAt perform)

namespace Work

variable [Language] {p : Backend} {folder : Path} {b b' : CliState} {x x' : Index} {around :
  Surroundings}
  {c : Configuration} {backend dataset : Json}

/-- An index is cached in each of two states. -/
structure AtHand (p : Backend) (folder : Path) (x x' : Index) (b b' : CliState) : Prop where
  pair : Paired (UsesBackend p folder) b b'
  left : b.index = some x
  right : b'.index = some x'

theorem AtHand.interchangeable (h : AtHand p folder x x' b b') : x.Interchangeable x' :=
  (h.pair.left.index x h.left).trans (h.pair.right.index x' h.right).symm

/-- A configuration is chosen, or is not, in the same way in both states. -/
theorem lockstep_configure (h : Paired (UsesBackend p folder) b b') (around : Surroundings)
    (backend dataset : Json) :
    Lockstep (UsesBackend p folder)
      (fun c c' s s' => c = c' ∧ Configuration.choose around backend dataset = .ok c ∧
        Paired (UsesBackend p folder) s s')
      (configure around backend dataset) (configure around backend dataset) b b' := by
  cases hchoose : Configuration.choose around backend dataset with
  | error e => exact .error (does_configure_error hchoose) (does_configure_error hchoose) h
  | ok c =>
    have left := does_configure (b := b) hchoose
    have right := does_configure (b := b') hchoose
    have hpair : Paired (UsesBackend p folder) ⟨(b.storage.makeFolders c.folder).1, b.index⟩
        ⟨(b'.storage.makeFolders c.folder).1, b'.index⟩ :=
      ⟨by rw [h.storage], h.left.makeFolders c.folder, h.right.makeFolders c.folder⟩
    have hfailure : (b.storage.makeFolders c.folder).2 = (b'.storage.makeFolders c.folder).2 := by
      rw [h.storage]
    rw [← hfailure] at right
    cases hmade : (b.storage.makeFolders c.folder).2 with
    | none =>
      rw [hmade] at left right
      exact .ok left right ⟨rfl, rfl, hpair⟩
    | some e =>
      rw [hmade] at left right
      exact .error left right hpair

theorem lockstep_theIndex (h : Paired (UsesBackend p folder) b b') (hc : c.backend? = some p.name)
    (hfolder : c.folder = folder) :
    Lockstep (UsesBackend p folder) (AtHand p folder) (theIndex c) (theIndex c) b b' := by
  -- The storage is the same, so it can be prepared in both states or in none of them.
  obtain ⟨s, x, hs, left, huses⟩ | ⟨e, he, left⟩ := h.left.does_theIndex hc hfolder
  all_goals
    obtain ⟨s', x', hs', right, huses'⟩ | ⟨e', he', right⟩ := h.right.does_theIndex hc hfolder
  · rw [h.storage, hs'] at hs
    cases hs
    exact .ok left right ⟨⟨rfl, huses, huses'⟩, rfl, rfl⟩
  · rw [h.storage, he'] at hs
    cases hs
  · rw [h.storage, hs'] at he
    cases he
  · rw [h.storage, he'] at he
    cases he
    exact .error left right h

/-- Operations that match are put down alike. -/
theorem lockstep_settle {o o' : Outcome Index} (h : Index.Match o o')
    (hleft : UsesBackend p folder ⟨o.storage, some o.index⟩)
    (hright : UsesBackend p folder ⟨o'.storage, some o'.index⟩) :
    Lockstep (UsesBackend p folder)
      (fun y y' s s' => o.failure = none ∧ y = o.index ∧ y' = o'.index ∧
        AtHand p folder y y' s s')
      (settle o) (settle o') b b' := by
  have left := does_settle (b := b) o
  have right := does_settle (b := b') o'
  have hpair :
      Paired (UsesBackend p folder) ⟨o.storage, some o.index⟩ ⟨o'.storage, some o'.index⟩ :=
    ⟨h.storage, hleft, hright⟩
  rw [← h.failure] at right
  cases hfailure : o.failure with
  | none =>
    rw [hfailure] at left right
    exact .ok left right ⟨rfl, rfl, rfl, hpair, rfl, rfl⟩
  | some e =>
    rw [hfailure] at left right
    exact .error left right hpair

/-- An index that has been created or loaded is the same in both states, whatever was cached. -/
def Renews (p : Backend) (folder : Path) (y y' : Index) (s s' : CliState) : Prop :=
  y = y' ∧ AtHand p folder y y' s s'

theorem lockstep_create (h : AtHand p folder x x' b b') {name : Json}
    (hname : p = .memory → ∀ t, name = .str t → Storage.IsName t) (now : Text)
    (entries : List Json) :
    Lockstep (UsesBackend p folder) (Renews p folder)
      (settle (x.create b.storage now name entries))
      (settle (x'.create b'.storage now name entries)) b b' := by
  obtain ⟨hmatch, hsame⟩ := Index.create_congr h.interchangeable b'.storage now name entries
  rw [← h.pair.storage] at hmatch hsame
  have hright := h.pair.right.create h.right hname now entries
  rw [← h.pair.storage] at hright ⊢
  refine (lockstep_settle hmatch (h.pair.left.create h.left hname now entries) hright).weaken ?_
  rintro y y' s s' ⟨hok, rfl, rfl, hhand⟩
  exact ⟨hsame hok, hhand⟩

theorem lockstep_load (h : Paired (UsesBackend p folder) b b') (hc : c.backend? = some p.name)
    (hfolder : c.folder = folder) (name : Json) :
    Lockstep (UsesBackend p folder) (Renews p folder) (load c name) (load c name) b b' := by
  refine (lockstep_theIndex h hc hfolder).bind fun x x' s s' hhand => ?_
  refine .after_reads (reads_lift name.text) hhand.pair fun t _ => ?_
  refine .get (f := fun s => settle (x.load s (x.home.child t)))
    (g := fun s => settle (x'.load s (x'.home.child t))) ?_
  have hpath : x'.home.child t = x.home.child t := by rw [hhand.interchangeable.same.home]
  obtain ⟨hmatch, hsame⟩ :=
    Index.load_congr hhand.interchangeable s.storage (x.home.child t)
  have hright := hhand.pair.right.load hhand.right (x.home.child t)
  rw [← hhand.pair.storage] at hright ⊢
  rw [hpath]
  refine (lockstep_settle hmatch (hhand.pair.left.load hhand.left _) hright).weaken ?_
  rintro y y' s s' ⟨hok, rfl, rfl, hhand⟩
  exact ⟨hsame hok, hhand⟩

theorem lockstep_delete (h : AtHand p folder x x' b b') {name : Text}
    (hname : p = .memory → Storage.IsName name) :
    Lockstep (UsesBackend p folder) (AtHand p folder) (settle (x.delete b.storage name))
      (settle (x'.delete b'.storage name)) b b' := by
  have hmatch := Index.delete_congr h.interchangeable b.storage name
  have hright := h.pair.right.delete h.right hname
  rw [← h.pair.storage] at hright ⊢
  refine (lockstep_settle hmatch (h.pair.left.delete h.left hname) hright).weaken ?_
  rintro y y' s s' ⟨-, -, -, hhand⟩
  exact hhand

end Work

namespace Backend

/-- Whatever configuration is chosen, it is one for indexes of a kind. -/
def IsAskedFor (p : Backend) (around : Surroundings) (backend dataset : Json) : Prop :=
  ∀ c, Configuration.choose around backend dataset = .ok c → c.backend? = some p.name

/-- A name under which an index of a kind is created or deleted, which in memory has to be plain. -/
def Takes (p : Backend) (name : Json) : Prop :=
  p = .memory → ∀ t, name = .str t → Storage.IsName t

end Backend

/-- The commands that ask for indexes of one kind, and name those that they create. -/
def Command.Suits [Language] (p : Backend) (around : Surroundings) : Command → Prop
  | createIndex dataset name _ backend =>
    p.IsAskedFor around backend dataset ∧ name ≠ .null ∧ p.Takes name
  | search _ _ _ backend | showDocument _ _ backend | listIndices backend =>
    p.IsAskedFor around backend .null
  | demo => p.IsAskedFor around .null .null
  | deleteIndex name backend => p.IsAskedFor around backend .null ∧ p.Takes name
  | showConfig _ => True

namespace Work

variable {p : Backend} {folder : Path} {b b' : CliState} {around : Surroundings}
  {dataset name sample backend : Json}

section Commands

variable [Language] (h : Paired (UsesBackend p folder) b b') (hfolder :
  .ofText around.folder = folder)
include h hfolder

/-- A command that goes on with the configuration it has chosen. -/
theorem lockstep_configured {f : Configuration → Work Json}
    (hf : ∀ c s s', Configuration.choose around backend dataset = .ok c → c.folder = folder →
      Paired (UsesBackend p folder) s s' →
      Lockstep (UsesBackend p folder) (Equally (UsesBackend p folder)) (f c) (f c) s s') :
    Lockstep (UsesBackend p folder) (Equally (UsesBackend p folder))
      (configure around backend dataset >>= f)
      (configure around backend dataset >>= f) b b' := by
  refine (lockstep_configure h around backend dataset).bind ?_
  rintro c _ s s' ⟨rfl, hc, hpair⟩
  exact hf c s s' hc ((Configuration.folder_of_choose hc).trans hfolder) hpair

theorem lockstep_createIndex (hsuits : (Command.createIndex dataset name sample backend).Suits p
    around) :
    Lockstep (UsesBackend p folder) (Equally (UsesBackend p folder))
      (createIndex around dataset name sample backend)
      (createIndex around dataset name sample backend) b b' := by
  obtain ⟨hasks, hgiven, hplain⟩ := hsuits
  rw [createIndex_eq, nameFor_of_ne_null hgiven]
  refine lockstep_configured h hfolder fun c s s' hc hin hpair => ?_
  obtain ⟨r, hdocuments⟩ := reads_documentsFor c sample
  refine .after_reads (reads_heading _) hpair fun _ _ => ?_
  refine .after_reads (reads_lift name.shown) hpair fun shown _ => ?_
  refine .after_reads (reads_say _ _) hpair fun _ _ => ?_
  refine .after_reads hdocuments hpair fun documents _ => ?_
  refine .after_reads (reads_say _ _) hpair fun _ _ => ?_
  refine (lockstep_theIndex hpair (hasks c hc) hin).bind fun x x' s s' hhand => ?_
  refine .get (f := creating around name shown documents x)
    (g := creating around name shown documents x') ?_
  refine (lockstep_create hhand hplain around.now _).bind ?_
  rintro _ _ s s' ⟨-, hhand⟩
  exact .of_reads ((reads_say _ _).seq (reads_pure name)) hhand.pair

/-- A command that reads of the index that it has loaded. -/
theorem lockstep_loaded (hasks : p.IsAskedFor around backend .null) (name : Json)
    {f : Configuration → Index → Work Json} {r : Configuration → Index → Except Failure Json}
    (hf : ∀ c x, Reads (f c x) fun _ => r c x) :
    Lockstep (UsesBackend p folder) (Equally (UsesBackend p folder))
      (do let c ← configure around backend .null; let x ← load c name; f c x)
      (do let c ← configure around backend .null; let x ← load c name; f c x) b b' := by
  refine lockstep_configured h hfolder fun c s s' hc hin hpair => ?_
  refine (lockstep_load hpair (hasks c hc) hin name).bind ?_
  rintro x _ s s' ⟨rfl, hhand⟩
  exact .of_reads (hf c x) hhand.pair

theorem lockstep_demo (hasks : p.IsAskedFor around .null .null) :
    Lockstep (UsesBackend p folder) (Equally (UsesBackend p folder))
      (demo around) (demo around) b b' := by
  have hname : Storage.IsName demoName := ⟨rfl, by decide⟩
  rw [demo_eq]
  refine lockstep_configured h hfolder fun c s s' hc hin hpair => ?_
  refine (lockstep_theIndex hpair (hasks c hc) hin).bind fun x x' s s' hhand => ?_
  refine .get (f := demonstrating around c x) (g := demonstrating around c x') ?_
  refine (lockstep_create hhand (fun _ t ht => Json.str.inj ht ▸ hname) around.now _).bind ?_
  rintro x _ s s' ⟨rfl, hhand⟩
  refine .after_reads (reads_forM (reads_showQuery _ x) demoQueries) hhand.pair fun _ _ => ?_
  refine .get (f := clearingAway x) (g := clearingAway x) ?_
  refine (lockstep_delete hhand fun _ => hname).bind fun _ _ s s' hhand => ?_
  exact .of_reads (reads_pure Json.null) hhand.pair

theorem lockstep_listIndices (hasks : p.IsAskedFor around backend .null) :
    Lockstep (UsesBackend p folder) (Equally (UsesBackend p folder)) (listIndices around backend)
      (listIndices around backend) b b' := by
  rw [listIndices_eq]
  refine lockstep_configured h hfolder fun c s s' hc hin hpair => ?_
  refine (lockstep_theIndex hpair (hasks c hc) hin).bind fun x x' s s' hhand => ?_
  refine .get (f := fun s => liftM (x.stored s) >>= listing)
    (g := fun s => liftM (x'.stored s) >>= listing) ?_
  rw [← hhand.pair.storage, ← Index.stored_congr hhand.interchangeable]
  exact .of_reads ((reads_lift _).bind reads_listing) hhand.pair

theorem lockstep_deleteIndex (hsuits : (Command.deleteIndex name backend).Suits p around) :
    Lockstep (UsesBackend p folder) (Equally (UsesBackend p folder))
      (deleteIndex around name backend)
      (deleteIndex around name backend) b b' := by
  obtain ⟨hasks, hplain⟩ := hsuits
  rw [deleteIndex_eq]
  refine lockstep_configured h hfolder fun c s s' hc hin hpair => ?_
  refine .after_reads (reads_lift name.shown) hpair fun shown _ => ?_
  refine .after_reads (reads_say _ _) hpair fun _ _ => ?_
  refine (lockstep_theIndex hpair (hasks c hc) hin).bind fun x x' s s' hhand => ?_
  refine .after_reads (reads_lift name.text) hhand.pair fun target htarget => ?_
  have hname (hp : p = .memory) : Storage.IsName target :=
    hplain hp target (Json.text_eq_ok_iff.mp htarget)
  refine .get (f := deleting target x) (g := deleting target x') ?_
  refine (lockstep_delete hhand hname).bind fun _ _ s s' hhand => ?_
  exact .of_reads ((reads_say _ _).seq (reads_pure Json.null)) hhand.pair

theorem lockstep_showConfig :
    Lockstep (UsesBackend p folder) (Equally (UsesBackend p folder)) (showConfig around backend)
      (showConfig around backend) b b' :=
  lockstep_configured h hfolder fun _ _ _ _ _ hpair =>
    .of_reads ((reads_print _).seq (reads_pure Json.null)) hpair

/-- What a suiting command comes to does not depend on the index that is cached. -/
theorem lockstep_perform {command : Command} (hsuits : command.Suits p around) :
    Lockstep (UsesBackend p folder) (Equally (UsesBackend p folder)) (perform around command)
      (perform around command) b b' := by
  cases command with
  | createIndex dataset name sample backend => exact lockstep_createIndex h hfolder hsuits
  | search query name limit backend =>
    exact lockstep_loaded h hfolder hsuits name fun c x => reads_answering c query limit x
  | showDocument doc name backend =>
    exact lockstep_loaded h hfolder hsuits name fun _ x => reads_showing doc name x
  | demo => exact lockstep_demo h hfolder hsuits
  | listIndices backend => exact lockstep_listIndices h hfolder hsuits
  | deleteIndex name backend => exact lockstep_deleteIndex h hfolder hsuits
  | showConfig backend => exact lockstep_showConfig h hfolder

end Commands

end Work

namespace SearchCli

/-- The CLI after some commands, each with what it has found around it. -/
def after [Language] (d : SearchCli) (commands : List (Surroundings × Command)) : SearchCli :=
  commands.foldl (fun d e => (runAt (perform e.1 e.2) d).2) d

variable {p : Backend} {folder : Path} {d : SearchCli} {storage : IndexStorage}
  {commands before : List (Surroundings × Command)}

/-- Commands that suit a backend: they work in its folder on indexes of its kind. -/
def AllSuit [Language] (p : Backend) (folder : Path) (commands : List (Surroundings × Command)) :
    Prop :=
  ∀ e ∈ commands, .ofText e.1.folder = folder ∧ e.2.Suits p e.1

theorem usesBackend_after [Language] (h : UsesBackend p folder d.state) (hsuit :
    AllSuit p folder commands) :
    UsesBackend p folder (d.after commands).state := by
  induction commands generalizing d with
  | nil => exact h
  | cons e rest ih =>
    obtain ⟨⟨hfolder, hsuits⟩, hrest⟩ := List.forall_mem_cons.mp hsuit
    have hstep := Work.lockstep_perform ⟨rfl, h, h⟩ hfolder hsuits
    exact ih (hstep.result rfl rfl).2.left hrest

/-- A CLI forgets: after any commands that ask for indexes of one kind, a command of that kind
comes to what it comes to with a new CLI over the same storage, and works on an index of that
kind. -/
theorem result_after [Language] (hstart : UsesBackend p folder (SearchCli.new storage).state)
    {e : Surroundings × Command} (hsuit : AllSuit p folder (before ++ [e])) :
    let used := (SearchCli.new storage).after before
    let fresh := SearchCli.new used.storage
    (runAt (perform e.1 e.2) used).1 = (runAt (perform e.1 e.2) fresh).1 ∧
      ∀ x, ((SearchCli.new storage).after (before ++ [e])).index = some x →
        x.SameIndex (p.newIndex folder) := by
  intro used fresh
  obtain ⟨hbefore, hlast⟩ := List.forall_mem_append.mp hsuit
  obtain ⟨hfolder, hsuits⟩ := hlast e List.mem_cons_self
  have hused : UsesBackend p folder used.state := usesBackend_after hstart hbefore
  have hfresh : UsesBackend p folder fresh.state := {
    index := fun _ h => (Option.some_ne_none _ h.symm).elim
    memory := fun hp => {
      direct := (hused.memory hp).direct
      root := (hused.memory hp).root
      saved := (hused.memory hp).saved
      home := fun h => absurd rfl h } }
  have hpair : Paired (UsesBackend p folder) used.state fresh.state := ⟨rfl, hused, hfresh⟩
  have hstep := Work.lockstep_perform hpair hfolder hsuits
  refine ⟨(hstep.result rfl rfl).1, fun x hx => ?_⟩
  exact ((usesBackend_after hstart hsuit).index x hx).same

/-- The theorem for a CLI that has indexed the sample. -/
theorem result_after_sample :
    let _ : Language := ⟨lower, []⟩
    let around : Surroundings := ⟨['m'], ['d'], "2024-02-29T12:30:00.000001".toText, ['s']⟩
    let used := (new .empty).after [(around, .createIndex .null (.str ['a']) (.bool true) .null)]
    let listed := perform around (.listIndices .null)
    (runAt listed used).1 = (runAt listed (new used.storage)).1 := by
  intro language around used listed
  have hfolder : Path.ofText around.folder = ⟨false, [['m']]⟩ := rfl
  have hchosen (c : Configuration) (h : Configuration.choose around .null .null = .ok c) :
      c.backend? = some Backend.memory.name := by
    cases h
    rfl
  have hstart : UsesBackend .memory ⟨false, [['m']]⟩ (new .empty).state := {
    index := fun _ h => (Option.some_ne_none _ h.symm).elim
    memory := fun _ => {
      direct := Path.direct_of_plain (by decide)
      root := rfl
      saved := .empty _
      home := fun h => absurd rfl h } }
  refine (result_after hstart (e := (around, .listIndices .null)) ?_).1
  rintro e he
  obtain rfl | rfl : e = _ ∨ e = _ := by simpa using he
  · refine ⟨hfolder, hchosen, nofun, fun _ t ht => ?_⟩
    cases ht
    exact ⟨rfl, by decide⟩
  · exact ⟨hfolder, hchosen⟩

/-- A command that asks for indexes of another kind is answered from those of the first one. -/
theorem result_after_other_kind :
    let _ : Language := ⟨lower, []⟩
    let around : Surroundings := ⟨['m'], ['d'], "2024-02-29T12:30:00.000001".toText, ['s']⟩
    let used := (new .empty).after [(around, .createIndex .null (.str ['a']) (.bool true) .null)]
    let listed := perform around (.listIndices (.str Backend.database.name))
    (runAt listed used).1 ≠ (runAt listed (new used.storage)).1 ∧
      (runAt listed used).1.map Json.display = .ok "['a']".toText ∧
      (runAt listed (new used.storage)).1.map Json.display = .ok "[]".toText := by
  intro language around used listed
  have hused : (runAt listed used).1.map Json.display = .ok "['a']".toText := by decide +kernel
  have hfresh : (runAt listed (new used.storage)).1.map Json.display = .ok "[]".toText := by
    decide +kernel
  refine ⟨fun h => ?_, hused, hfresh⟩
  rw [h, hfresh] at hused
  exact absurd hused (by decide)

end SearchCli

end Concordance
