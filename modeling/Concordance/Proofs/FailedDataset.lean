import Concordance.Proofs.Configured

/-!
# Datasets that do not load

A dataset loads unless it is not encoded as it should be or one of its lines ends the
loading. All its documents are loaded before anything is done to an index, so a creation
from a dataset that does not load leaves every stored index as it was, also one under the
name of the new one.
-/
namespace Concordance

namespace Work

open Dataset (EndsAt)

variable {around : Surroundings} {dataset name sample backend : Json} {c : Configuration}
  {s : IndexStorage} {d : SearchCli} {e : Failure}

/-- The dataset of a configuration does not load from a storage: it cannot be read, is not encoded
as it should be, or has a line that ends the loading, after any others. -/
def Unloadable (c : Configuration) (s : IndexStorage) : Prop :=
  (∃ e, datasetIn c s = .error e) ∨ ∃ bytes, datasetIn c s = .ok bytes ∧
    (String.fromUTF8? bytes = none ∨
      ∃ line ∈ (Dataset.linesOf bytes).zipIdx 1, EndsAt Configuration.datasetOptions line)

/-- What comes of loading the dataset of a configuration from a storage. -/
def loaded (c : Configuration) (s : IndexStorage) : Except Failure (List Document) :=
  datasetIn c s >>= fun bytes =>
    let loaded := Dataset.loadBytes Configuration.datasetOptions bytes
    loaded.failure.elim (.ok loaded.documents) .error

theorem loaded_fails_iff : (∃ e, loaded c s = .error e) ↔ Unloadable c s := by
  rw [loaded, Unloadable]
  cases datasetIn c s with
  | error e => exact iff_of_true ⟨e, rfl⟩ (.inl ⟨e, rfl⟩)
  | ok bytes =>
    have hloads : (Dataset.loadBytes Configuration.datasetOptions bytes).failure = none ↔ _ :=
      Dataset.failure_loadBytes_eq_none_iff rfl
    rw [ok_bind]
    cases hfailure : (Dataset.loadBytes Configuration.datasetOptions bytes).failure with
    | none =>
      obtain ⟨hencoded, hlines⟩ := hloads.mp hfailure
      refine iff_of_false (by simp [hfailure]) ?_
      rintro (⟨e, he⟩ | ⟨bytes', hbytes, hnone | ⟨line, hline, hends⟩⟩)
      · cases he
      · cases hbytes
        simp [hnone] at hencoded
      · cases hbytes
        exact hlines line hline hends
    | some e =>
      refine iff_of_true ⟨e, by simp [hfailure]⟩ (.inr ⟨bytes, rfl, ?_⟩)
      by_contra hall
      rw [not_or, ← ne_eq, Option.ne_none_iff_isSome] at hall
      have hnone := hloads.mpr ⟨hall.1, fun line hline hends => hall.2 ⟨line, hline, hends⟩⟩
      rw [hfailure] at hnone
      cases hnone

/-- The documents of the dataset that is chosen for a command. -/
def loading (around : Surroundings) (backend dataset : Json) : Work (List Document) := do
  let c ← configure around backend dataset
  loadDataset c

/-- Where the folder of all indexes can be made, loading fails exactly if the dataset does not
load. -/
theorem loading_fails_iff (hchosen : Configuration.choose around backend dataset = .ok c)
    (hmade : d.storage.makeFolders c.folder = (s, none)) :
    (∃ e, (runAt (loading around backend dataset) d).1 = .error e) ↔ Unloadable c s := by
  have hconfigured := does_configure (b := d.state) hchosen
  have hstate : d.state.storage = d.storage := rfl
  rw [hstate, hmade] at hconfigured
  have hloaded : (runAt (loading around backend dataset) d).1 = loaded c s :=
    (hconfigured.bind (reads_loadDataset c _) d rfl).1
  rw [hloaded, loaded_fails_iff]

/-- A creation whose dataset does not load ends with the failure of the dataset, unless the name
cannot be shown, and has done nothing but to make the folder of all indexes. -/
theorem createIndex_of_loading_fails [Language] (hsample : sample.isEmpty = true)
    (h : (runAt (loading around backend dataset) d).1 = .error e) :
    ∃ e' s, Does (createIndex around dataset name sample backend) d.state (.error e')
        ⟨s, d.index⟩ ∧
      ((nameFor around sample name).isWritable = true → e' = e) ∧
      (s = d.storage ∨ s = (d.storage.makeFolders (.ofText around.folder)).1) := by
  rw [createIndex_eq]
  cases hchosen : Configuration.choose around backend dataset with
  | error e' =>
    have hfails := does_configure_error (b := d.state) hchosen
    have heq := (hfails.bind_error (f := loadDataset) d rfl).1
    rw [loading, heq] at h
    cases h
    exact ⟨_, d.storage, hfails.bind_error, fun _ => rfl, .inl rfl⟩
  | ok c =>
    have hconfigured := does_configure (b := d.state) hchosen
    have hfolder := Configuration.folder_of_choose hchosen
    cases hmade : (d.state.storage.makeFolders c.folder).2 with
    | some e' =>
      rw [hmade] at hconfigured
      have heq := (hconfigured.bind_error (f := loadDataset) d rfl).1
      rw [loading, heq] at h
      cases h
      exact ⟨_, _, hconfigured.bind_error, fun _ => rfl, .inr (by rw [hfolder]; rfl)⟩
    | none =>
      rw [hmade] at hconfigured
      have hloaded := reads_loadDataset c ⟨(d.storage.makeFolders c.folder).1, d.index⟩
      have heq := (hconfigured.bind hloaded d rfl).1
      rw [loading, heq] at h
      rw [h] at hloaded
      have hsame : documentsFor c sample = loadDataset c := if_pos hsample
      rw [← hsame] at hloaded
      let b : CliState := ⟨(d.storage.makeFolders c.folder).1, d.index⟩
      have hshows (r) (hr : (nameFor around sample name).shown = r) :
          Does (liftM (nameFor around sample name).shown) b r b := hr ▸ reads_lift _ b
      cases hshown : (nameFor around sample name).shown with
      | ok shown =>
        refine ⟨e, b.storage, hconfigured.bind ((reads_heading _ b).bind ?_), fun _ => rfl, ?_⟩
        · exact (hshows _ hshown).bind ((reads_say _ _ b).bind hloaded.bind_error)
        · exact .inr (by rw [← hfolder])
      | error e' =>
        refine ⟨e', b.storage, hconfigured.bind ((reads_heading _ b).bind ?_), ?_, ?_⟩
        · exact (hshows _ hshown).bind_error
        · intro hwritable
          rw [Json.shown, if_pos hwritable] at hshown
          cases hshown
        · exact .inr (by rw [← hfolder])

end Work

open Work (runAt perform opening loading createIndex)

namespace SearchCli

/-- By one CLI stored indexes are found as by another one in all that works in a folder: only
folders on the way to it may be new, and whatever is done there before, every command comes to the
same and every index that is loaded is the same. -/
structure Undisturbed [Language] (folder : Path) (d d' : SearchCli) : Prop where
  index : d'.index = d.index
  storage : Storage.OnlyMakes d.storage d'.storage fun p =>
    ∃ n ≤ folder.names.length, p = (folder.upTo n).destination
  result : ∀ (earlier : List (Surroundings × Command)) (around : Surroundings) (command : Command),
    (∀ e ∈ earlier, .ofText e.1.folder = folder) → .ofText around.folder = folder →
      (runAt (perform around command) (d'.after earlier)).1 =
        (runAt (perform around command) (d.after earlier)).1
  opened : ∀ (earlier : List (Surroundings × Command)) (around : Surroundings)
    (backend name : Json), (∀ e ∈ earlier, .ofText e.1.folder = folder) →
      .ofText around.folder = folder →
      (runAt (opening around backend name) (d'.after earlier)).1 =
        (runAt (opening around backend name) (d.after earlier)).1

variable {folder : Path} {d d' : SearchCli} {around : Surroundings}
  {dataset name sample backend : Json} {e : Failure}

/-- Where only the folder of all indexes may have been made, nothing is disturbed. -/
theorem undisturbed_of_made [Language] (hindex : d'.index = d.index)
    (hstorage : d'.storage = d.storage ∨ d'.storage = (d.storage.makeFolders folder).1) :
    Undisturbed folder d d' := by
  have halike : MadeAlike folder d.state d'.state := by
    refine ⟨?_, hindex⟩
    show d'.storage.makeFolders folder = d.storage.makeFolders folder
    obtain hsame | hmade := hstorage
    · rw [hsame]
    · rw [hmade, Storage.makeFolders_again]
  refine ⟨hindex, ?_, fun earlier around command hearlier hfolder => ?_,
    fun earlier around backend name hearlier hfolder => ?_⟩
  · obtain hsame | hmade := hstorage
    · rw [hsame]
      exact .refl d.storage _
    · rw [hmade]
      exact Storage.onlyMakes_makeFolders d.storage folder
  · exact ((halike.after hearlier).perform hfolder command).1
  · exact ((halike.after hearlier).configured hfolder backend .null
      fun c => Work.determined_load c name).1

/-- A dataset that does not load harms no stored index. The creation from it fails, as its loading
does if the name can be shown, whatever index is stored under the name, and all commands and all
loads find by this CLI and by every new one what they would have found without it. -/
theorem createIndex_of_failed_dataset [Language] (hsample : sample.isEmpty = true)
    (h : (runAt (loading around backend dataset) d).1 = .error e) :
    let left := runAt (createIndex around dataset name sample backend) d
    (∃ failure, left.1 = .error failure ∧
        ((Work.nameFor around sample name).isWritable = true → failure = e)) ∧
      Undisturbed (.ofText around.folder) d left.2 ∧
      Undisturbed (.ofText around.folder) (.new d.storage) (.new left.2.storage) := by
  intro left
  obtain ⟨failure, s, hdoes, hfailure, hs⟩ :
      ∃ failure s, Work.Does (createIndex around dataset name sample backend) d.state
        (.error failure) ⟨s, d.index⟩ ∧ _ := Work.createIndex_of_loading_fails hsample h
  obtain ⟨hresult, hafter⟩ := hdoes d rfl
  have hstorage : left.2.storage = s := congrArg CliState.storage hafter
  have hindex : left.2.index = d.index := congrArg CliState.index hafter
  rw [← hstorage] at hs
  exact ⟨⟨failure, hresult, hfailure⟩, undisturbed_of_made hindex hs, undisturbed_of_made rfl hs⟩

/-- The theorem for a CLI where an index is stored under the name, and a dataset with a line that is
read and a byte that cannot be decoded. -/
theorem createIndex_of_undecodable_dataset :
    let _ : Language := ⟨lower, []⟩
    let around : Surroundings := ⟨['m'], ['d'], "2024-02-29T12:30:00.000001".toText, ['s']⟩
    let bytes := "\x7b\"id\": 3, \"text\": \"cat\"\x7d\n".toUTF8.push 255
    let storage : IndexStorage := Storage.empty.put ⟨false, [['d']]⟩ (.file (.bytes bytes))
    let d := (new storage).after [(around, .createIndex .null (.str ['i']) (.bool true) .null)]
    let left := runAt (createIndex around .null (.str ['i']) .null .null) d
    let shown := runAt (perform around (.showDocument (.int 2) (.str ['i']) .null))
    (runAt (loading around .null .null) d).1 = .error .undecodable ∧
      left.1 = .error .undecodable ∧ Undisturbed (.ofText around.folder) d left.2 ∧
      (shown (new left.2.storage)).1.map Json.display =
        .ok "A cat sleeps on the mat".toText := by
  intro language around bytes storage d left shown
  obtain ⟨hrun, hshown⟩ :
      (runAt (loading around .null .null) d).1.map (fun _ => ()) = .error .undecodable ∧
        (shown (new d.storage)).1.map Json.display =
          .ok "A cat sleeps on the mat".toText := by
    decide +kernel
  clear_value d
  have hloading : (runAt (loading around .null .null) d).1 = .error .undecodable := by
    cases hresult : (runAt (loading around .null .null) d).1 with
    | ok documents =>
      rw [hresult] at hrun
      cases hrun
    | error e =>
      rw [hresult] at hrun
      cases hrun
      rfl
  obtain ⟨⟨failure, hfails, hfailure⟩, hhere, hanew⟩ :
      (∃ failure, left.1 = .error failure ∧ _) ∧ _ ∧
        Undisturbed (.ofText around.folder) (new d.storage) (new left.2.storage) :=
    createIndex_of_failed_dataset (rfl : Json.null.isEmpty = true) hloading
  rw [hfailure rfl] at hfails
  refine ⟨hloading, hfails, hhere, ?_⟩
  have hsame : (shown (new left.2.storage)).1 = (shown (new d.storage)).1 :=
    hanew.result [] around (.showDocument (.int 2) (.str ['i']) .null)
      (fun _ he => absurd he List.not_mem_nil) rfl
  rw [hsame, hshown]

end SearchCli

end Concordance
