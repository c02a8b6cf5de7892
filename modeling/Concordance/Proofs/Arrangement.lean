import Concordance.Proofs.Cleaning

/-!
# The order of the entries does not matter

Documents with ids of their own make up the same collection in whatever order they come.
What is read of an index, and how its hits are ranked, is told by the collection, so the
same entries in another order give the same answers.
-/
namespace Concordance

namespace Collection

variable {docs docs' : Collection}

/-- Collections with the same documents are read alike, whatever the order of the documents is. -/
theorem view_congr (a : Analyzer) (h : ∀ d, docs.get? d = docs'.get? d) :
    view a docs = view a docs' := by
  have hperm : docs.entries.Perm docs'.entries := Table.perm_entries h
  have hhaving (term : Text) : (having a docs term).Perm (having a docs' term) :=
    (hperm.filter _).map Prod.fst
  have hlength (term : Text) : (having a docs term).length = (having a docs' term).length :=
    (hhaving term).length_eq
  have hpostings (term : Text) :
      DocSet.ofList (having a docs term) = .ofList (having a docs' term) :=
    DocSet.ext fun d => by rw [DocSet.mem_ofList, DocSet.mem_ofList, (hhaving term).mem_iff]
  have hsize : docs.size = docs'.size := hperm.length_eq
  have hkeys : sortBy (fun d e => d ≤ e) docs.keys = sortBy (fun d e => d ≤ e) docs'.keys :=
    sortBy_int_eq_of_perm (hperm.map Prod.fst)
  simp only [view, frequency, h, hlength, hpostings, hsize, hkeys]

end Collection

namespace Ingestion

/-- No two of the documents that entries give have the same id. -/
def DistinctIds (entries : List Json) : Prop :=
  ((entries.filterMap documentOf).map Prod.fst).Nodup

instance (entries : List Json) : Decidable (DistinctIds entries) :=
  inferInstanceAs (Decidable ((entries.filterMap documentOf).map Prod.fst).Nodup)

variable {entries entries' : List Json}

/-- Of documents with distinct ids the first one with some id is the only one. -/
theorem firstText_eq_of_perm (hdistinct : DistinctIds entries) (hperm : entries.Perm entries')
    (doc : Int) : firstText entries doc = firstText entries' doc := by
  have hdocuments := hperm.filterMap documentOf
  have hdistinct' : ((entries'.filterMap documentOf).map Prod.fst).Nodup :=
    (hdocuments.map Prod.fst).nodup_iff.mp hdistinct
  exact Table.get?_eq_of_perm (t := ⟨_, hdistinct⟩) (u := ⟨_, hdistinct'⟩) hdocuments doc

theorem get?_accepted_eq_of_perm (hpairs : ∀ entry ∈ entries, ∃ p, unpack entry = .ok p)
    (hdistinct : DistinctIds entries) (hperm : entries.Perm entries') (doc : Int) :
    (accepted .empty entries).get? doc = (accepted .empty entries').get? doc := by
  have hpairs' : ∀ entry ∈ entries', ∃ p, unpack entry = .ok p :=
    fun entry hentry => hpairs entry (hperm.mem_iff.mpr hentry)
  rw [get?_accepted hpairs, get?_accepted hpairs', firstText_eq_of_perm hdistinct hperm]

end Ingestion

namespace Index

variable {entries entries' : List Json} {x y : Index} {storage storage' : IndexStorage}
  {now now' : Text} {name name' : Json}

/-- Entries that give documents with distinct ids can be listed in any order: an index created of
them gives the same answers as one of either kind created of them in another order, and one of the
same kind fails where it fails. A query has the same hits with the same scores in both, or fails in
the same way. -/
theorem create_rearranged (hdistinct : Ingestion.DistinctIds entries)
    (hperm : entries.Perm entries') (hanalyzer : x.analyzer = y.analyzer)
    (hx : (x.create storage now name entries).failure = none)
    (hy : (y.create storage' now' name' entries').failure = none) :
    Agree (x.create storage now name entries).index
        (y.create storage' now' name' entries').index ∧
      (x.SameKind y → AgreeThroughout (x.create storage now name entries).index
        (y.create storage' now' name' entries').index) ∧
      ∀ (e : Engine) (query : Text) (limit : Json),
        e.search (x.create storage now name entries).index.view query =
            e.search (y.create storage' now' name' entries').index.view query ∧
          e.answer (x.create storage now name entries).index.view query limit =
            e.answer (y.create storage' now' name' entries').index.view query limit := by
  have hview := view_create hx
  have hview' : (y.create storage' now' name' entries').index.view =
      Collection.view x.analyzer (Ingestion.accepted .empty entries) := by
    rw [view_create hy, hanalyzer]
    exact (Collection.view_congr y.analyzer
      (Ingestion.get?_accepted_eq_of_perm (allPairs_of_create hx) hdistinct hperm)).symm
  refine ⟨agree_of_view_eq hview hview',
    fun hkind => agreeThroughout_of_view_eq (hkind.create ..) hview hview', fun e query limit => ?_⟩
  rw [hview, hview']
  exact ⟨rfl, rfl⟩

/-- The theorem at an index of each kind, with entries of which one has no content and one no
id. -/
theorem create_rearranged_four_entries :
    let a : Analyzer := ⟨true, defaultPunctuation, .suffix, []⟩
    let x : Index := .memory (.new a ⟨false, [['m']]⟩ (.value (.str ['j'])))
    let y : Index := .database (.new a ⟨false, [['d']]⟩)
    let cats : Json := .arr [.int 2, .str "cats".toText]
    let dog : Json := .arr [.str ['1'], .str "a dog".toText]
    let blank : Json := .arr [.int 2, .str []]
    let cow : Json := .arr [.str ['x'], .str "cow".toText]
    let created := (x.create .empty [] (.str ['i']) [cats, dog, blank, cow]).index
    let created' := (y.create .empty [] (.str ['i']) [blank, cow, dog, cats]).index
    Agree created created' ∧ (x.SameKind y → AgreeThroughout created created') ∧
      ∀ (e : Engine) (query : Text) (limit : Json),
      e.search created.view query = e.search created'.view query ∧
        e.answer created.view query limit = e.answer created'.view query limit := by
  intro a x y cats dog blank cow created created'
  have hperm : [cats, dog, blank, cow].Perm [blank, cow, dog, cats] :=
    List.perm_append_comm.trans (.append_left [blank, cow] (.swap dog cats []))
  exact create_rearranged (by decide +kernel) hperm rfl (by decide +kernel) (by decide +kernel)

end Index

end Concordance
