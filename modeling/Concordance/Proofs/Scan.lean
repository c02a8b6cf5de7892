import Concordance.Proofs.MemoryIndex
import Concordance.Proofs.Search

/-!
# Searching is scanning

What a query finds in an index are the stored documents that it finds in an index of
their own. The query sees the documents one by one, however it is spelled.
-/
namespace Concordance

namespace Ingestion

theorem size_accept_le (docs : Collection) (id content : Json) :
    (accept docs id content).size ≤ docs.size + 1 := by
  unfold accept
  split
  · omega
  · split
    · split
      · omega
      · next hfree =>
        have hnew := Table.contains_eq_false_iff.mp (Bool.eq_false_iff.mpr hfree)
        exact Nat.le_of_eq (Table.size_set_of_new hnew _)
    · omega

theorem size_accepted_le (docs : Collection) (entries : List Json) :
    (accepted docs entries).size ≤ docs.size + entries.length := by
  induction entries generalizing docs with
  | nil => exact Nat.le_refl _
  | cons entry rest ih =>
    rw [accepted, List.length_cons]
    split
    · next id content _ =>
      have hrest := ih (accept docs id content)
      have haccept := size_accept_le docs id content
      omega
    · omega

theorem size_accepted_empty_le (entries : List Json) :
    (accepted .empty entries).size ≤ entries.length :=
  Nat.le_trans (size_accepted_le .empty entries) (Nat.le_of_eq (Nat.zero_add _))

theorem paired_ne_nil {t : Text} (h : t ≠ []) : paired t ≠ [] := by
  cases t with
  | nil => contradiction
  | cons c t =>
    intro hnil
    obtain hfirst | ⟨d, hfirst⟩ := head?_paired c t
    all_goals
      rw [hnil] at hfirst
      cases hfirst

/-- No document of a collection of accepted entries is empty. -/
theorem ne_nil_of_accepted {entries : List Json} {d : Int} {text : Text}
    (hd : (accepted .empty entries).get? d = some text) : text ≠ [] := by
  refine forall_accepted (P := fun _ text => text ≠ []) ?_ (fun _ _ hnone => by cases hnone)
    d text hd
  intro _ _ id content doc text _ hfull hgives
  obtain ⟨-, htext⟩ := hgives
  cases content with
  | str t =>
    cases htext
    refine paired_ne_nil ?_
    rintro rfl
    cases hfull
  | _ => cases htext

def pair (d : Int) (text : Text) : Json := .arr [.int d, .str text]

theorem accepted_pair (d : Int) {text : Text} (h : text ≠ []) (hpair : hasPair text = false) :
    accepted .empty [pair d text] = Table.set .empty d text := by
  cases text with
  | nil => contradiction
  | cons c rest =>
    show Table.set .empty d (paired (c :: rest)) = _
    rw [paired_of_hasPair_eq_false hpair]

end Ingestion

namespace MemoryIndex

variable {x : MemoryIndex} {storage : IndexStorage} {now : Text} {name : Json}
  {entries : List Json}

/-- An index of one document, created where another index could be. -/
def alone (x : MemoryIndex) (storage : IndexStorage) (now : Text) (name : Json) (d : Int)
    (text : Text) : Outcome MemoryIndex :=
  x.create storage now name [Ingestion.pair d text]

/-- A text that is not empty is taken in, whatever its id is. -/
theorem ingest_pair (a : Analyzer) (d : Int) {text : Text} (h : text ≠ []) :
    ∃ t, Ingestion.ingest (addDocument a) .empty [Ingestion.pair d text] = ⟨t, 1, [], none⟩ := by
  cases text with
  | nil => contradiction
  | cons c rest =>
    refine ⟨Tables.grow .empty d (paired (c :: rest)) (a.terms (paired (c :: rest))), ?_⟩
    have hnew : Tables.empty.contents.contents.get? d = none := rfl
    have hadd := Tables.add_of_free hnew rfl (paired (c :: rest)) (a.terms (paired (c :: rest)))
    simp [Ingestion.pair, Ingestion.ingest, Ingestion.unpack, Json.isEmpty, addDocument,
      Json.toInteger, Ingestion.textOf, hadd]

/-- The tables of an index of one document represent it, also where they could not be saved. -/
theorem represents_pair (a : Analyzer) (d : Int) (text : Text) :
    Tables.Represents a (Ingestion.accepted .empty [Ingestion.pair d text])
      (Ingestion.ingest (addDocument a) .empty [Ingestion.pair d text]).built := by
  by_cases htext : text = []
  · -- The document is skipped, and whether that can be reported makes no difference.
    subst htext
    have hnone : (Ingestion.ingest (addDocument a) .empty [Ingestion.pair d []]).built =
        .empty := by
      simp only [Ingestion.pair, Ingestion.ingest, Ingestion.unpack, Json.isEmpty]
      split <;> simp_all
    rw [hnone]
    exact Tables.represents_empty a
  · obtain ⟨t, hingested⟩ := ingest_pair a d htext
    exact represents_of_stopped (by rw [hingested])

theorem view_alone (h : (x.create storage now name entries).failure = none) (d : Int)
    (text : Text) :
    (x.alone storage now name d text).index.view =
      Collection.view x.analyzer (Ingestion.accepted .empty [Ingestion.pair d text]) := by
  obtain ⟨cleared, t, -, -, hbuilds⟩ := exists_build h
  obtain ⟨log, hlog⟩ := hbuilds [Ingestion.pair d text]
  rw [alone, hlog, view, build_tables]
  exact (represents_pair x.analyzer d text).view_eq

/-- An index of one document is created where its id can be written, and where the document is one
of an index that has been created. -/
theorem alone_failure (h : (x.create storage now name entries).failure = none) {d : Int}
    {text : Text} (hd : isWritable d = true ∨
      (x.create storage now name entries).index.view.content d = .ok (some text)) :
    (x.alone storage now name d text).failure = none := by
  have hlegible (hd : isWritable d = true) : Ingestion.Legible [Ingestion.pair d text] := by
    intro entry hentry
    rw [List.mem_singleton.mp hentry]
    exact ⟨_, rfl, hd⟩
  obtain hd | hcontent := hd
  · exact create_failure_of_ingested h
      ((follows x.analyzer).stopped_eq_none .empty (hlegible hd))
      (takes_of_legible _ _ (hlegible hd))
  · obtain ⟨hstopped, htakes⟩ := ingested_of_create h
    rw [view_create h] at hcontent
    have hdoc : (Ingestion.accepted .empty entries).get? d = some text := Except.ok.inj hcontent
    obtain ⟨t, hingested⟩ := ingest_pair x.analyzer d (Ingestion.ne_nil_of_accepted hdoc)
    refine create_failure_of_ingested h (by rw [hingested]) ?_
    rw [Form.takes, Bool.or_eq_true, List.all_eq_true] at htakes ⊢
    refine htakes.imp_right fun hall e he => ?_
    rw [(represents_of_stopped hstopped).contents] at hall
    rw [(represents_pair x.analyzer d text).contents,
      Ingestion.accepted_pair d (Ingestion.ne_nil_of_accepted hdoc)
        (Ingestion.hasPair_of_accepted hdoc)] at he
    obtain rfl : e = d := by simpa using Table.mem_keys_set.mp he
    exact hall e (Table.mem_keys.mpr (by rw [hdoc]; rfl))

end MemoryIndex

namespace Collection

variable {a : Analyzer} {docs : Collection} {e : Engine} {depth : Int}

theorem postings_view (t : Text) :
    (view a docs).postings t = .ok (.ofList (having a docs t)) := rfl

/-- A query matches a stored document exactly when it matches it in a collection of its own. -/
theorem matching_alone (hdepth : e.maxDepth = .int depth) {d : Int} {text : Text}
    (hd : docs.get? d = some text) (query : Text) :
    Alike (fun s t => d ∈ s ↔ d ∈ t) (Engine.nestingFailure depth)
      (e.matching (view a docs) query)
      (e.matching (view a (Table.set .empty d text)) query) := by
  refine Engine.matching_alike (compatible_mem d d) hdepth (fun t => ?_) query
  refine ⟨_, _, postings_view t, postings_view t, ?_⟩
  rw [DocSet.mem_ofList, DocSet.mem_ofList, mem_having, mem_having, hd, Table.get?_set_self]

theorem not_mem_matching {d : Int} (hd : docs.get? d = none) {query : Text} {s : DocSet}
    (hs : e.matching (view a docs) query = .ok s) : d ∉ s := by
  refine Engine.not_mem_matching (fun t => ⟨_, postings_view t, ?_⟩) hs
  rw [DocSet.mem_ofList, mem_having, hd]
  simp

/-- Whether parentheses nest too deeply does not depend on the documents. -/
theorem matching_nesting (hdepth : e.maxDepth = .int depth) (docs others : Collection)
    (query : Text) :
    Alike (fun _ _ => True) (Engine.nestingFailure depth) (e.matching (view a docs) query)
      (e.matching (view a others) query) :=
  Engine.matching_alike compatible_true hdepth
    (fun t => ⟨_, _, postings_view t, postings_view t, trivial⟩) query

theorem found_nesting_iff (hdepth : e.maxDepth = .int depth) {others : Collection}
    (hdocs : docs.size < Nat.pow 2 1023) (hothers : others.size < Nat.pow 2 1023) (query : Text) :
    e.found (view a docs) query = .error (Engine.nestingFailure depth) ↔
      e.found (view a others) query = .error (Engine.nestingFailure depth) := by
  rw [Engine.found_eq_error_iff (counts_sound hdocs),
    Engine.found_eq_error_iff (counts_sound hothers)]
  have h := matching_nesting (a := a) hdepth docs others query
  generalize e.matching (view a docs) query = r at h ⊢
  generalize e.matching (view a others) query = r' at h ⊢
  cases h with
  | ok _ => exact iff_of_false nofun nofun
  | error => exact Iff.rfl

/-- A query that does not nest too deeply finds the documents that it finds in collections of
their own. -/
theorem found_iff_alone (hdepth : e.maxDepth = .int depth) (hdocs : docs.size < Nat.pow 2 1023)
    {query : Text} (h : e.found (view a docs) query ≠ .error (Engine.nestingFailure depth)) :
    ∃ ids, e.found (view a docs) query = .ok ids ∧ ids.Nodup ∧ ∀ d, d ∈ ids ↔
      ∃ text, docs.get? d = some text ∧
        ∃ own, e.found (view a (Table.set .empty d text)) query = .ok own ∧ d ∈ own := by
  cases hmatching : e.matching (view a docs) query with
  | error failure =>
    have hself := matching_nesting (a := a) hdepth docs docs query
    rw [hmatching] at hself
    cases hself
    exact absurd ((Engine.found_eq_error_iff (counts_sound hdocs)).mpr hmatching) h
  | ok s =>
    obtain ⟨ids, hids, hnodup, hmem⟩ := Engine.found_eq_ok (counts_sound hdocs) hmatching
    refine ⟨ids, hids, hnodup, fun d => ?_⟩
    rw [hmem]
    cases hd : docs.get? d with
    | none => simp [not_mem_matching hd hmatching]
    | some text =>
      have halone := matching_alone (a := a) hdepth hd query
      rw [hmatching] at halone
      generalize hown : e.matching (view a (Table.set .empty d text)) query = r at halone
      cases halone with
      | @ok _ t ht =>
        have hone : (Table.set .empty d text : Collection).size < Nat.pow 2 1023 := by
          rw [Table.size_set_of_new (Table.get?_empty d)]
          exact one_lt_pow_1023
        obtain ⟨own, hfound, -, hmemOwn⟩ := Engine.found_eq_ok (counts_sound hone) hown
        rw [ht, ← hmemOwn]
        constructor
        · intro hd
          exact ⟨text, rfl, own, hfound, hd⟩
        · rintro ⟨text', htext, own', hfound', hd⟩
          cases htext
          rw [hfound] at hfound'
          cases hfound'
          exact hd

end Collection

namespace MemoryIndex

variable {x : MemoryIndex} {storage : IndexStorage} {now : Text} {name : Json}
  {entries : List Json}

/-- A query fails in an index that was created exactly when it fails in an index of one document,
whichever, and it fails by its parentheses only. An index of one document can be created where its
id can be written, and of each stored document. Else it finds the stored documents that it finds
in an index of their own, and lists each once. The bound on the entries, from which on a quotient
of counts may be no double, is far beyond the length of any list that a machine holds. -/
theorem found_iff_found_alone (h : (x.create storage now name entries).failure = none)
    (hbound : entries.length < Nat.pow 2 1023) {e : Engine} {depth : Int}
    (hdepth : e.maxDepth = .int depth) (query : Text) :
    (∀ d text, ((isWritable d = true ∨
        (x.create storage now name entries).index.view.content d = .ok (some text)) →
          (x.alone storage now name d text).failure = none) ∧
      (e.found (x.create storage now name entries).index.view query =
          .error (Engine.nestingFailure depth) ↔
        e.found (x.alone storage now name d text).index.view query =
          .error (Engine.nestingFailure depth))) ∧
      (e.found (x.create storage now name entries).index.view query ≠
          .error (Engine.nestingFailure depth) →
        ∃ ids, e.found (x.create storage now name entries).index.view query = .ok ids ∧
          ids.Nodup ∧ ∀ d, d ∈ ids ↔ ∃ text,
            (x.create storage now name entries).index.view.content d = .ok (some text) ∧
              ∃ own, e.found (x.alone storage now name d text).index.view query = .ok own ∧
                d ∈ own) := by
  simp only [view_create h, view_alone h]
  have hdocs : (Ingestion.accepted .empty entries).size < Nat.pow 2 1023 :=
    Nat.lt_of_le_of_lt (Ingestion.size_accepted_empty_le entries) hbound
  refine ⟨fun d text => ⟨fun hd => ?_, ?_⟩, fun hfound => ?_⟩
  · exact alone_failure h (hd.imp_right fun hcontent => by rwa [view_create h])
  · have hone : (Ingestion.accepted .empty [Ingestion.pair d text]).size < Nat.pow 2 1023 :=
      Nat.lt_of_le_of_lt (Ingestion.size_accepted_empty_le _) one_lt_pow_1023
    exact Collection.found_nesting_iff hdepth hdocs hone query
  · obtain ⟨ids, hids, hnodup, hmem⟩ := Collection.found_iff_alone hdepth hdocs hfound
    refine ⟨ids, hids, hnodup, fun d => ?_⟩
    rw [hmem]
    refine exists_congr fun text => ?_
    have hcontent : (Collection.view x.analyzer (Ingestion.accepted .empty entries)).content d =
        .ok (some text) ↔ (Ingestion.accepted .empty entries).get? d = some text :=
      ⟨Except.ok.inj, congrArg Except.ok⟩
    rw [hcontent]
    refine and_congr_right fun hd => ?_
    rw [Ingestion.accepted_pair d (Ingestion.ne_nil_of_accepted hd)
      (Ingestion.hasPair_of_accepted hd)]

/-- The theorem at two documents and a query whose only group is not closed. -/
theorem found_iff_found_alone_open_group :
    let a : Analyzer := ⟨true, defaultPunctuation, .suffix, []⟩
    let x : MemoryIndex := .new a ⟨false, [['m']]⟩ (.value (.str ['j']))
    let entries :=
      [Ingestion.pair 1 ['c', 'a', 't', 's'], Ingestion.pair 2 ['A', ' ', 'd', 'o', 'g']]
    let e : Engine := ⟨a.punctuation, a.stemmer, .int 5, .null⟩
    let query : Text := ['(', 'c', 'a', 't', ' ', 'O', 'R', ' ', 'd', 'o', 'g']
    (∀ d text, ((isWritable d = true ∨
        (x.create .empty [] (.str ['i']) entries).index.view.content d = .ok (some text)) →
          (x.alone .empty [] (.str ['i']) d text).failure = none) ∧
      (e.found (x.create .empty [] (.str ['i']) entries).index.view query =
          .error (Engine.nestingFailure 5) ↔
        e.found (x.alone .empty [] (.str ['i']) d text).index.view query =
          .error (Engine.nestingFailure 5))) ∧
      (e.found (x.create .empty [] (.str ['i']) entries).index.view query ≠
          .error (Engine.nestingFailure 5) →
        ∃ ids, e.found (x.create .empty [] (.str ['i']) entries).index.view query = .ok ids ∧
          ids.Nodup ∧ ∀ d, d ∈ ids ↔ ∃ text,
            (x.create .empty [] (.str ['i']) entries).index.view.content d = .ok (some text) ∧
              ∃ own, e.found (x.alone .empty [] (.str ['i']) d text).index.view query = .ok own ∧
                d ∈ own) := by
  intro a x entries e query
  have h : (x.create .empty [] (.str ['i']) entries).failure = none := by decide +kernel
  exact found_iff_found_alone h (by decide +kernel) rfl query

end MemoryIndex

end Concordance
