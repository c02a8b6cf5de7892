import Concordance.Index.Database
import Concordance.Proofs.IdTables

/-!
# The records of a database

A record that is written is read back: a document if its text has no pair, postings if
their ids can be written. Terms, documents and the catalogue are kept under different
keys, so no other record is touched.
-/
namespace Concordance

@[simp] theorem Json.count_int (n : Nat) : (Json.int n).count = .ok n := rfl

namespace StoredDocument

/-- A document is read back as it was written. -/
theorem ofJson_restored {d : StoredDocument} (h : hasPair d.content = false) :
    ofJson d.toJson.restored = .ok d := by
  have hrestored : d.toJson.restored = d.toJson := by
    refine (Json.restored_obj_of_names ?_ ?_).trans ?_
    · simp
    · show ["content".toText, "length".toText].Nodup
      decide
    · simp [toJson, paired_of_hasPair_eq_false h]
  rw [hrestored]
  rfl

end StoredDocument

/-- Postings are read back as they were written. -/
theorem postingsOfJson_restored {p : Table Int Nat} (h : ∀ e ∈ p.entries, isWritable e.1 = true) :
    postingsOfJson (postingsToJson p).restored = .ok p := by
  rw [postingsToJson, IdKeys.restored_write fun _ _ => rfl]
  exact IdKeys.read_write Json.count_int h

namespace Catalogue

theorem restored_toJson {c : Catalogue} (hname : hasPair c.name = false)
    (hstemmer : hasPair c.stemmer = false) : c.toJson.restored = c.toJson := by
  refine (Json.restored_obj_of_names ?_ ?_).trans ?_
  · simp
  · show ["index_id".toText, "doc_count".toText, "term_count".toText, "doc_ids".toText,
      "stemmer".toText].Nodup
    decide
  · simp only [toJson, List.map_cons, List.map_nil, Json.restored_str, Json.restored_int,
      Json.restored_ints, paired_of_hasPair_eq_false hname, paired_of_hasPair_eq_false hstemmer]

theorem documentCountOf_toJson (c : Catalogue) : documentCountOf c.toJson = .ok c.documentCount :=
  rfl

theorem documentsOf_toJson (c : Catalogue) : documentsOf c.toJson = .ok c.documents := by
  have hread : (c.documents.map Json.int).mapM Json.wholeNumber = .ok (c.documents.map id) :=
    mapM_map_ok fun _ _ => rfl
  rwa [List.map_id] at hread

end Catalogue

namespace Database

theorem termKey_injective {t u : Text} (h : termKey t = termKey u) : t = u :=
  List.append_cancel_left h

theorem documentKey_injective {s t : Text} (h : documentKey s = documentKey t) : s = t :=
  List.append_cancel_left h

theorem termKey_ne_documentKey (t s : Text) : termKey t ≠ documentKey s :=
  fun h => absurd (List.cons.inj h).1 (by decide)

theorem termKey_ne_catalogueKey (t : Text) : termKey t ≠ catalogueKey :=
  fun h => absurd (List.cons.inj h).1 (by decide)

theorem documentKey_ne_catalogueKey (s : Text) : documentKey s ≠ catalogueKey :=
  fun h => absurd (List.cons.inj h).1 (by decide)

variable (db : Database)

theorem read?_put (key key' : Text) (record : Json) :
    (db.put key record).read? key' =
      if key' = key then some record.restored else db.read? key' := by
  rw [read?, put, Table.get?_set]
  split <;> rfl

theorem postings_put_of_ne {term key : Text} (h : termKey term ≠ key) (record : Json) :
    (db.put key record).postings term = db.postings term := by
  rw [postings, read?_put, if_neg h, postings]

theorem postings_put (term term' : Text) {p : Table Int Nat}
    (hp : ∀ e ∈ p.entries, isWritable e.1 = true) :
    (db.put (termKey term) (postingsToJson p)).postings term' =
      if term' = term then .ok p else db.postings term' := by
  by_cases h : term' = term
  · subst h
    rw [postings, read?_put, if_pos rfl, if_pos rfl]
    exact postingsOfJson_restored hp
  · rw [postings_put_of_ne db (fun hkey => h (termKey_injective hkey)), if_neg h]

theorem document?_put_of_ne {doc : Int} {key : Text} (h : documentKey (decimal doc) ≠ key)
    (record : Json) : (db.put key record).document? doc = db.document? doc := by
  rw [document?, documentAt, read?_put, if_neg h]
  rfl

theorem document?_put (doc doc' : Int) {d : StoredDocument} (hd : hasPair d.content = false) :
    (db.put (documentKey (decimal doc)) d.toJson).document? doc' =
      if doc' = doc then .ok (some d) else db.document? doc' := by
  by_cases h : doc' = doc
  · subst h
    rw [document?, documentAt, read?_put, if_pos rfl, if_pos rfl]
    simp only [StoredDocument.ofJson_restored hd]
    rfl
  · have hkey : documentKey (decimal doc') ≠ documentKey (decimal doc) :=
      fun hkey => h (decimal_injective (documentKey_injective hkey))
    rw [document?_put_of_ne db hkey, if_neg h]

/-- A database has a record of a document exactly when the document is read. -/
theorem hasDocument_of_document? {db : Database} {doc : Int} {document : Option StoredDocument}
    (h : db.document? doc = .ok document) : db.hasDocument doc = document.isSome := by
  rw [hasDocument]
  rw [document?, documentAt, read?] at h
  cases hrecord : db.records.get? (documentKey (decimal doc)) with
  | none =>
    rw [hrecord] at h
    cases h
    rfl
  | some j =>
    rw [hrecord] at h
    obtain ⟨d, -, rfl⟩ := map_eq_ok_iff.mp h
    rfl

end Database

namespace Draft

/-- The postings of a term get an entry for a document that has it. -/
theorem get?_terms_add (d : Draft) (doc : Int) (text : Text) (terms : List Text) (term : Text) :
    (d.add doc text terms).terms.get? term =
      if term ∈ terms then some (((d.terms.get? term).getD .empty).set doc (terms.count term))
      else d.terms.get? term :=
  Table.get?_foldl_tally (count doc) (fun old n => (old.getD .empty).set doc n) (fun _ _ => rfl)
    terms d.terms term

theorem document?_foldl_put (entries : List (Text × Table Int Nat)) (db : Database) (doc : Int) :
    (entries.foldl (fun db e => db.put (Database.termKey e.1) (postingsToJson e.2))
      db).document? doc = db.document? doc := by
  induction entries generalizing db with
  | nil => rfl
  | cons e rest ih =>
    rw [List.foldl_cons, ih,
      db.document?_put_of_ne (Database.termKey_ne_documentKey e.1 _).symm]

theorem document?_complete (d : Draft) (c : Catalogue) (doc : Int) :
    (d.complete c).document? doc = d.database.document? doc := by
  rw [complete, Database.document?_put_of_ne _ (Database.documentKey_ne_catalogueKey _), withTerms,
    document?_foldl_put]

theorem postings_foldl_put {t : Table Text (Table Int Nat)}
    (ht : ∀ e ∈ t.entries, ∀ p ∈ e.2.entries, isWritable p.1 = true) (db : Database)
    (term : Text) :
    (t.entries.foldl (fun db e => db.put (Database.termKey e.1) (postingsToJson e.2))
      db).postings term =
      match t.get? term with
      | some p => .ok p
      | none => db.postings term := by
  obtain ⟨entries, hd⟩ := t
  simp only [Table.get?]
  simp only at ht
  induction entries generalizing db with
  | nil => rfl
  | cons e rest ih =>
    obtain ⟨term', p⟩ := e
    obtain ⟨hp, hrest⟩ := List.forall_mem_cons.mp ht
    rw [List.foldl_cons, ih _ (List.nodup_cons.mp hd).2 hrest, Table.lookup_entry,
      Database.postings_put _ _ _ hp]
    by_cases h : term = term'
    · subst h
      rw [Table.lookup_tail_eq_none hd, if_pos rfl, if_pos rfl]
    · rw [if_neg h, if_neg h]

theorem postings_complete {d : Draft}
    (ht : ∀ e ∈ d.terms.entries, ∀ p ∈ e.2.entries, isWritable p.1 = true) (c : Catalogue)
    (term : Text) :
    (d.complete c).postings term =
      match d.terms.get? term with
      | some p => .ok p
      | none => d.database.postings term := by
  rw [complete, Database.postings_put_of_ne _ (Database.termKey_ne_catalogueKey _), withTerms,
    postings_foldl_put ht]

theorem catalogue?_complete (d : Draft) (c : Catalogue) :
    (d.complete c).catalogue? = some c.toJson.restored := by
  rw [complete, Database.catalogue?, Database.read?_put, if_pos rfl]

end Draft

end Concordance
